import Appspine.LifecycleBoot
import Appspine.StableSort

/-!
# What boot and shutdown leave behind

A call of `boot`, and a call of `shutdown` once it has returned, as the effect of what the hooks
do. Entries, events, outcome and health are views of that effect.
-/
namespace Appspine.Lifecycle
open JsText InsertionMap PluginManifest Transitions StableSort

variable {options : LifecycleRunnerOptions}

section Catalog

structure HostCatalog where
  outcome : HostBootOutcome
  entries : List CatalogEntry
  diagnostics : List PluginDiagnostic

/-- What `boot` has returned. -/
def catalogOf (r : PluginLifecycleRunner) : Option HostCatalog :=
  match r.boot with
  | .returned outcome diagnostics => some ⟨outcome, r.entries.map Prod.snd, diagnostics⟩
  | _ => none

inductive HealthStatus where
  | ready
  | degraded
  | failed
  deriving DecidableEq

structure Health where
  status : HealthStatus
  degraded : List JsString
  failed : List JsString

def aggregateHealth (catalog : HostCatalog) : Health :=
  let degraded := sorted ((catalog.entries.filter fun e => e.status = .degraded).map (·.key))
  let failed := sorted ((catalog.entries.filter fun e =>
    e.status = .failed ∨ e.status = .notReached).map (·.key))
  { status := if failed ≠ [] then .failed else if degraded ≠ [] then .degraded else .ready
    degraded := degraded
    failed := failed }

end Catalog

section Effect

/-- What the log says of a stage. -/
def stageOutcome : Option HookResult → StageOutcome
  | none => .skipped
  | some .returns => .ok
  | some (.throws _) => .failed
  | some .overruns => .timeout

def failureOf (options : LifecycleRunnerOptions) (i : RuntimeInstance)
    (stage : PluginLifecycleStage) : Option StageError :=
  (i.hooks stage).bind fun work =>
    withTimeout work (options.stageTimeoutMs.getD DEFAULT_STAGE_TIMEOUT_MS) stage i.key

/-- The stages of one instance, with every hook settled. -/
def stagesEffect (options : LifecycleRunnerOptions) (r : PluginLifecycleRunner)
    (i : RuntimeInstance) : List PluginLifecycleStage → PluginLifecycleRunner × Option PluginDiagnostic
  | [] => (r, none)
  | stage :: stages =>
    match failureOf options i stage with
    | none => stagesEffect options (passStage r i stage (stageOutcome (i.hooks stage))) i stages
    | some error => (failStage r i stage error, some (stageDiagnostic i stage error))

/-- The loop over the instances, with every hook settled. -/
def bootEffect (options : LifecycleRunnerOptions) (r : PluginLifecycleRunner)
    (progress : BootProgress) : List RuntimeInstance → PluginLifecycleRunner × BootProgress
  | [] => (r, progress)
  | i :: rest =>
    if progress.aborted then bootEffect options (r.setStatus i.key .notReached) progress rest
    else
      let s := (stagesEffect options r i PLUGIN_BOOT_STAGES).1
      match (stagesEffect options r i PLUGIN_BOOT_STAGES).2 with
      | none => bootEffect options s progress rest
      | some d =>
        let diagnostics := progress.diagnostics ++ [d]
        if i.fatal then
          bootEffect options (s.setStatus i.key .failed) ⟨diagnostics, true, progress.degraded⟩ rest
        else
          bootEffect options (s.setStatus i.key .degraded) ⟨diagnostics, progress.aborted, true⟩ rest

variable {r : PluginLifecycleRunner}

/-- Where `boot` waits does not matter to what it does next. -/
lemma passStage_boot (b : BootPhase) (i : RuntimeInstance) (stage : PluginLifecycleStage)
    (outcome : StageOutcome) :
    passStage { r with boot := b } i stage outcome = { passStage r i stage outcome with boot := b } := by
  cases stage <;> rfl

lemma runBootStages_boot (b : BootPhase) (i : RuntimeInstance) (rest : List RuntimeInstance)
    (progress : BootProgress) (stages : List PluginLifecycleStage) :
    runBootStages { r with boot := b } i rest progress stages =
      runBootStages r i rest progress stages := by
  induction stages generalizing r with
  | nil => rfl
  | cons stage stages ih =>
    unfold runBootStages
    cases i.hooks stage with
    | none => rw [passStage_boot, ih]
    | some work => rfl

lemma bootLoop_boot (b : BootPhase) (progress : BootProgress) (rest : List RuntimeInstance) :
    bootLoop { r with boot := b } progress rest = bootLoop r progress rest := by
  induction rest generalizing r with
  | nil => rfl
  | cons i rest ih =>
    unfold bootLoop
    split_ifs
    · exact ih (r := r.setStatus i.key .notReached)
    · exact runBootStages_boot b i rest progress _

lemma failureOf_none {i : RuntimeInstance} {stage : PluginLifecycleStage}
    (h : i.hooks stage = none) : failureOf options i stage = none := by
  rw [failureOf, h, Option.bind_none]

lemma stageOutcome_of_timeout {work : HookResult} {timeoutMs : ℕ} {stage : PluginLifecycleStage}
    {key : JsString} {error : StageError} (h : withTimeout work timeoutMs stage key = some error) :
    stageOutcome (some work) = if error.timedOut then .timeout else .failed := by
  cases work with
  | returns => cases h
  | throws message =>
    obtain rfl := Option.some.inj h
    rfl
  | overruns =>
    obtain rfl := Option.some.inj h
    rfl

/-- The stages of an instance run to their end. -/
lemma runBootStages_boots (i : RuntimeInstance) (rest : List RuntimeInstance)
    (progress : BootProgress) (stages : List PluginLifecycleStage) :
    BootsTo options (runBootStages r i rest progress stages)
      { (stagesEffect options r i stages).1 with
        boot := .settled i (stagesEffect options r i stages).2 rest progress } := by
  induction stages generalizing r with
  | nil => exact BootsTo.refl
  | cons stage stages ih =>
    unfold runBootStages stagesEffect
    cases hhook : i.hooks stage with
    | none =>
      rw [failureOf_none hhook]
      exact ih
    | some work =>
      refine BootsTo.head rfl ?_
      rw [settleStage, failureOf, hhook, Option.bind_some]
      cases hw : withTimeout work (options.stageTimeoutMs.getD DEFAULT_STAGE_TIMEOUT_MS) stage i.key with
      | none =>
        obtain rfl := withTimeout_eq_none.mp hw
        dsimp only
        rw [passStage_boot, runBootStages_boot]
        exact ih
      | some error => exact BootsTo.refl

/-- The loop over the instances runs to its end. -/
lemma bootLoop_boots (progress : BootProgress) (rest : List RuntimeInstance) :
    BootsTo options (bootLoop r progress rest)
      { (bootEffect options r progress rest).1 with
        boot := .returned (bootOutcome (bootEffect options r progress rest).2)
          (sortDiagnostics (bootEffect options r progress rest).2.diagnostics) } := by
  induction rest generalizing r progress with
  | nil => exact BootsTo.refl
  | cons i rest ih =>
    unfold bootLoop bootEffect
    by_cases hp : progress.aborted = true
    · rw [if_pos hp, if_pos hp]
      exact ih _
    · rw [if_neg hp, if_neg hp]
      refine (runBootStages_boots i rest progress PLUGIN_BOOT_STAGES).trans (BootsTo.head rfl ?_)
      dsimp only
      unfold resumeBoot
      cases (stagesEffect options r i PLUGIN_BOOT_STAGES).2 with
      | none =>
        dsimp only
        rw [bootLoop_boot]
        exact ih _
      | some d =>
        dsimp only
        by_cases hf : i.fatal = true
        · rw [if_pos hf, if_pos hf]
          exact (bootLoop_boot _ _ rest) ▸ ih _
        · rw [if_neg hf, if_neg hf]
          exact (bootLoop_boot _ _ rest) ▸ ih _

end Effect

section Stages

variable {r : PluginLifecycleRunner}

/-- What an instance that `boot` gets to ends as. -/
def RuntimeInstance.verdict (i : RuntimeInstance) : PluginInstanceStatus :=
  if i.boots then .ready else if i.fatal then .failed else .degraded

/-- The events of these stages, up to the first that fails. -/
def stageEvents (i : RuntimeInstance) : List PluginLifecycleStage → List LifecycleEvent
  | [] => []
  | stage :: stages =>
    eventOf i stage (stageOutcome (i.hooks stage)) :: if i.passes stage then stageEvents i stages else []

def bootEvents (i : RuntimeInstance) : List LifecycleEvent := stageEvents i PLUGIN_BOOT_STAGES

/-- The keys of the catalog, and the names its entries carry. -/
def named (r : PluginLifecycleRunner) : List (JsString × JsString) :=
  r.entries.map fun e => (e.1, e.2.key)

lemma names_modify (entries : Entries JsString CatalogEntry) (key : JsString)
    (f : CatalogEntry → CatalogEntry) (hf : ∀ e, (f e).key = e.key) :
    (InsertionMap.modify entries key f).map (fun e => (e.1, e.2.key)) =
      entries.map fun e => (e.1, e.2.key) := by
  rw [InsertionMap.modify, List.map_map]
  refine List.map_congr_left fun e _ => ?_
  simp only [Function.comp_apply]
  split_ifs
  · rw [hf]
  · rfl

@[simp] lemma named_setStatus (key : JsString) (status : PluginInstanceStatus) :
    named (r.setStatus key status) = named r :=
  names_modify r.entries key (fun e => { e with status := status }) fun _ => rfl

@[simp] lemma named_passStage (i : RuntimeInstance) (stage : PluginLifecycleStage)
    (outcome : StageOutcome) : named (passStage r i stage outcome) = named r := by
  cases stage with
  | shutdown => rfl
  | validate => exact named_setStatus i.key .validated
  | register => exact named_setStatus i.key .registered
  | ready => exact named_setStatus i.key .ready

@[simp] lemma named_failStage (i : RuntimeInstance) (stage : PluginLifecycleStage)
    (error : StageError) : named (failStage r i stage error) = named r :=
  names_modify r.entries i.key (fun e => { e with error := some (stage, error.message) })
    fun _ => rfl

lemma failureOf_eq_none {i : RuntimeInstance} {stage : PluginLifecycleStage} :
    failureOf options i stage = none ↔ i.passes stage = true := by
  unfold failureOf RuntimeInstance.passes
  cases i.hooks stage with
  | none => simp
  | some work => simp [withTimeout_eq_none]

lemma stageOutcome_failed {i : RuntimeInstance} {stage : PluginLifecycleStage} {error : StageError}
    (h : failureOf options i stage = some error) :
    stageOutcome (i.hooks stage) = if error.timedOut then .timeout else .failed := by
  obtain ⟨work, hwork, herror⟩ := Option.bind_eq_some_iff.mp h
  rw [hwork]
  exact stageOutcome_of_timeout herror

lemma isSome_statusOf {key : JsString} :
    (statusOf r key).isSome = true ↔ key ∈ (named r).map Prod.fst := by
  have hkeys : (named r).map Prod.fst = keys r.entries := by
    rw [named, List.map_map]
    rfl
  rw [hkeys, statusOf, Option.isSome_map, ← not_iff_not, ← get_eq_none, Bool.not_eq_true,
    Option.isSome_eq_false_iff, Option.isNone_iff_eq_none]

lemma statusAfter_ne_stopped {stage : PluginLifecycleStage} (h : stage ∈ PLUGIN_BOOT_STAGES) :
    statusAfter stage ≠ .stopped := by
  cases stage <;> simp_all [PLUGIN_BOOT_STAGES, statusAfter]

lemma recorded_passStage (i : RuntimeInstance) (stage : PluginLifecycleStage)
    (outcome : StageOutcome) :
    (passStage r i stage outcome).recorded = r.recorded ++ [eventOf i stage outcome] := by
  cases stage <;> rfl

/-- What the stages of one instance leave. -/
structure StagesSpec (r : PluginLifecycleRunner) (i : RuntimeInstance)
    (stages : List PluginLifecycleStage)
    (after : PluginLifecycleRunner × Option PluginDiagnostic) : Prop where
  recorded : after.1.recorded = r.recorded ++ stageEvents i stages
  named : named after.1 = named r
  others : ∀ key, key ≠ i.key → statusOf after.1 key = statusOf r key
  failure : after.2 = none ↔ ∀ stage ∈ stages, i.passes stage = true
  status : after.2 = none → ∀ stage, stages.getLast? = some stage →
    (statusOf r i.key).isSome = true → statusOf after.1 i.key = some (statusAfter stage)
  notStopped : ∀ key, statusOf after.1 key = some .stopped → statusOf r key = some .stopped

/-- One stage that passes. -/
lemma passStage_spec (i : RuntimeInstance) {stage : PluginLifecycleStage}
    (hstage : stage ∈ PLUGIN_BOOT_STAGES) (hpasses : i.passes stage = true) :
    StagesSpec r i [stage] (passStage r i stage (stageOutcome (i.hooks stage)), none) where
  recorded := by rw [recorded_passStage, stageEvents, if_pos hpasses, stageEvents]
  named := named_passStage i stage _
  others key hkey := by rw [statusOf_passStage i hstage, if_neg hkey]
  failure := by simp [hpasses]
  status _ last hlast hsome := by
    obtain rfl : stage = last := by simpa using hlast
    obtain ⟨status, hstatus⟩ := Option.isSome_iff_exists.mp hsome
    rw [statusOf_passStage i hstage, if_pos rfl, hstatus]
    rfl
  notStopped key hkey := by
    rw [statusOf_passStage i hstage] at hkey
    split_ifs at hkey with heq
    · obtain ⟨status, _, hstopped⟩ := Option.map_eq_some_iff.mp hkey
      exact absurd hstopped (statusAfter_ne_stopped hstage)
    · exact hkey

/-- The stages of an instance, by induction on those that are left. -/
lemma stagesEffect_spec (i : RuntimeInstance) {stages : List PluginLifecycleStage}
    (hstages : ∀ stage ∈ stages, stage ∈ PLUGIN_BOOT_STAGES) :
    StagesSpec r i stages (stagesEffect options r i stages) := by
  induction stages generalizing r with
  | nil =>
    exact ⟨(List.append_nil _).symm, rfl, fun _ _ => rfl, by simp [stagesEffect], by simp,
      fun _ h => h⟩
  | cons stage stages ih =>
    have hstage := hstages stage List.mem_cons_self
    unfold stagesEffect
    cases hfailure : failureOf options i stage with
    | none =>
      have hpasses := failureOf_eq_none.mp hfailure
      have hone := @passStage_spec r i stage hstage hpasses
      have hrest := ih (r := passStage r i stage (stageOutcome (i.hooks stage)))
        fun s hs => hstages s (List.mem_cons_of_mem _ hs)
      refine ⟨?_, hrest.named.trans hone.named,
        fun key hkey => (hrest.others key hkey).trans (hone.others key hkey), ?_, ?_,
        fun key hkey => hone.notStopped key (hrest.notStopped key hkey)⟩
      · have hevents : stageEvents i (stage :: stages) =
            eventOf i stage (stageOutcome (i.hooks stage)) :: stageEvents i stages := by
          rw [stageEvents, if_pos hpasses]
        rw [hrest.recorded, recorded_passStage, hevents, List.append_assoc, List.singleton_append]
      · rw [hrest.failure, List.forall_mem_cons]
        exact ⟨fun h => ⟨hpasses, h⟩, fun h => h.2⟩
      · intro hnone last hlast hsome
        cases stages with
        | nil => exact hone.status rfl last hlast hsome
        | cons next rest =>
          have hlast' : (next :: rest).getLast? = some last := by simpa using hlast
          refine hrest.status hnone last hlast' ?_
          rw [isSome_statusOf, named_passStage, ← isSome_statusOf]
          exact hsome
    | some error =>
      have hfails : i.passes stage = false := by
        rw [← Bool.not_eq_true, ← @failureOf_eq_none options, hfailure]
        simp
      have hstatus := statusOf_failStage (r := r) i stage error
      refine ⟨?_, named_failStage i stage error, fun key _ => hstatus key, by simp [hfails],
        by simp, fun key hkey => hstatus key ▸ hkey⟩
      rw [stageEvents, hfails, stageOutcome_failed hfailure]
      rfl

end Stages

section Outcomes

variable {r : PluginLifecycleRunner}

/-- What each instance ends as, from the next one on. -/
def outcomes (aborted : Bool) :
    List RuntimeInstance → List (RuntimeInstance × PluginInstanceStatus)
  | [] => []
  | i :: rest =>
    if aborted then (i, .notReached) :: outcomes true rest
    else (i, i.verdict) :: outcomes (decide (i.verdict = .failed)) rest

/-- The events of one instance, by what it ends as. -/
def eventsFor (q : RuntimeInstance × PluginInstanceStatus) : List LifecycleEvent :=
  if q.2 = .notReached then [] else bootEvents q.1

lemma verdict_eq_failed {i : RuntimeInstance} : i.verdict = .failed ↔ i.Aborts := by
  rw [aborts_iff_fatal, RuntimeInstance.verdict]
  cases i.boots <;> cases i.fatal <;> simp

lemma verdict_of_not_failed {i : RuntimeInstance} (h : i.verdict ≠ .failed) :
    i.verdict = .ready ∨ i.verdict = .degraded := by
  revert h
  unfold RuntimeInstance.verdict
  cases i.boots <;> cases i.fatal <;> simp

lemma verdict_ne_notReached (i : RuntimeInstance) : i.verdict ≠ .notReached := by
  unfold RuntimeInstance.verdict
  cases i.boots <;> cases i.fatal <;> simp

lemma outcomes_aborted (instances : List RuntimeInstance) :
    outcomes true instances = instances.map fun i => (i, .notReached) := by
  induction instances with
  | nil => rfl
  | cons i rest ih => rw [outcomes, if_pos rfl, ih, List.map_cons]

@[simp] lemma outcomes_fst (aborted : Bool) (instances : List RuntimeInstance) :
    (outcomes aborted instances).map Prod.fst = instances := by
  induction instances generalizing aborted with
  | nil => rfl
  | cons i rest ih =>
    unfold outcomes
    split_ifs
    · rw [List.map_cons, ih]
    · rw [List.map_cons, ih]

lemma outcomes_keys (aborted : Bool) (instances : List RuntimeInstance) :
    (outcomes aborted instances).map (fun q => q.1.key) = instances.map (·.key) := by
  have hmap := congrArg (List.map (·.key)) (outcomes_fst aborted instances)
  rwa [List.map_map] at hmap

/-- The instances in front of one that ends the boot, and what comes behind it. -/
lemma outcomes_append {before : List RuntimeInstance} (rest : List RuntimeInstance)
    (hbefore : ∀ j ∈ before, ¬ j.Aborts) :
    outcomes false (before ++ rest) =
      before.map (fun j => (j, j.verdict)) ++ outcomes false rest := by
  induction before with
  | nil => rfl
  | cons j before ih =>
    have hj : decide (j.verdict = .failed) = false := by
      rw [decide_eq_false_iff_not, verdict_eq_failed]
      exact hbefore j List.mem_cons_self
    rw [List.cons_append, outcomes, if_neg Bool.false_ne_true, hj,
      ih fun k hk => hbefore k (List.mem_cons_of_mem _ hk), List.map_cons, List.cons_append]

/-- Either nothing ends the boot, or one instance does and those behind it are not reached. -/
lemma outcomes_split (instances : List RuntimeInstance) :
    (∀ q ∈ outcomes false instances, q.2 = .ready ∨ q.2 = .degraded) ∨
      ∃ (before : List (RuntimeInstance × PluginInstanceStatus)) (d : RuntimeInstance)
        (rest : List RuntimeInstance), outcomes false instances =
          before ++ (d, .failed) :: rest.map (fun i => (i, .notReached)) ∧
        ∀ q ∈ before, q.2 = .ready ∨ q.2 = .degraded := by
  induction instances with
  | nil => exact Or.inl (by simp [outcomes])
  | cons i rest ih =>
    rw [outcomes, if_neg Bool.false_ne_true]
    by_cases hfailed : i.verdict = .failed
    · right
      refine ⟨[], i, rest, ?_, by simp⟩
      rw [hfailed, decide_eq_true rfl, outcomes_aborted, List.nil_append]
    · rw [decide_eq_false hfailed]
      rcases ih with hall | ⟨before, d, after, heq, hbefore⟩
      · left
        intro q hq
        rcases List.mem_cons.mp hq with rfl | hq
        · exact verdict_of_not_failed hfailed
        · exact hall q hq
      · right
        refine ⟨(i, i.verdict) :: before, d, after, by rw [heq, List.cons_append], ?_⟩
        intro q hq
        rcases List.mem_cons.mp hq with rfl | hq
        · exact verdict_of_not_failed hfailed
        · exact hbefore q hq

/-- What the loop over the instances leaves. -/
structure BootSpec (r : PluginLifecycleRunner) (progress : BootProgress)
    (instances : List RuntimeInstance) (after : PluginLifecycleRunner × BootProgress) : Prop where
  recorded : after.1.recorded =
    r.recorded ++ (outcomes progress.aborted instances).flatMap eventsFor
  named : named after.1 = named r
  others : ∀ key, key ∉ instances.map (·.key) → statusOf after.1 key = statusOf r key
  statuses : ∀ q ∈ outcomes progress.aborted instances, statusOf after.1 q.1.key = some q.2
  aborted : after.2.aborted = true ↔
    progress.aborted = true ∨ ∃ q ∈ outcomes progress.aborted instances, q.2 = .failed
  degraded : after.2.degraded = true ↔
    progress.degraded = true ∨ ∃ q ∈ outcomes progress.aborted instances, q.2 = .degraded

/-- One instance behind which the loop goes on. -/
lemma BootSpec.cons {progress progress' : BootProgress} {s : PluginLifecycleRunner}
    {i : RuntimeInstance} {rest : List RuntimeInstance} {status : PluginInstanceStatus}
    {after : PluginLifecycleRunner × BootProgress} (h : BootSpec s progress' rest after)
    (hn : i.key ∉ rest.map (·.key))
    (hout : outcomes progress.aborted (i :: rest) = (i, status) :: outcomes progress'.aborted rest)
    (hrecorded : s.recorded = r.recorded ++ eventsFor (i, status))
    (hnamed : Lifecycle.named s = Lifecycle.named r)
    (hothers : ∀ key, key ≠ i.key → statusOf s key = statusOf r key)
    (hstatus : statusOf s i.key = some status)
    (haborted : progress'.aborted = true ↔ progress.aborted = true ∨ status = .failed)
    (hdegraded : progress'.degraded = true ↔ progress.degraded = true ∨ status = .degraded) :
    BootSpec r progress (i :: rest) after where
  recorded := by
    rw [h.recorded, hrecorded, hout, List.flatMap_cons, List.append_assoc]
  named := h.named.trans hnamed
  others key hkey := by
    rw [List.map_cons, List.mem_cons, not_or] at hkey
    exact (h.others key hkey.2).trans (hothers key hkey.1)
  statuses q hq := by
    rw [hout] at hq
    rcases List.mem_cons.mp hq with rfl | hq
    · exact (h.others i.key hn).trans hstatus
    · exact h.statuses q hq
  aborted := by
    rw [h.aborted, haborted, hout, List.exists_mem_cons_iff, or_assoc]
  degraded := by
    rw [h.degraded, hdegraded, hout, List.exists_mem_cons_iff, or_assoc]

lemma boots_iff_passes {i : RuntimeInstance} :
    i.boots = true ↔ ∀ stage ∈ PLUGIN_BOOT_STAGES, i.passes stage = true := List.all_eq_true

/-- The loop, by induction on the instances that are left. -/
lemma bootEffect_spec {instances : List RuntimeInstance} (progress : BootProgress)
    (hn : (instances.map (·.key)).Nodup)
    (hcat : ∀ i ∈ instances, (statusOf r i.key).isSome = true) :
    BootSpec r progress instances (bootEffect options r progress instances) := by
  induction instances generalizing r progress with
  | nil => exact ⟨by simp [bootEffect, outcomes], rfl, fun _ _ => rfl, by simp [outcomes],
      by simp [bootEffect, outcomes], by simp [bootEffect, outcomes]⟩
  | cons i rest ih =>
    rw [List.map_cons, List.nodup_cons] at hn
    obtain ⟨status, hstatus⟩ := Option.isSome_iff_exists.mp (hcat i List.mem_cons_self)
    have hrest : ∀ {s : PluginLifecycleRunner}, named s = named r →
        ∀ j ∈ rest, (statusOf s j.key).isSome = true := by
      intro s hs j hj
      rw [isSome_statusOf, hs, ← isSome_statusOf]
      exact hcat j (List.mem_cons_of_mem _ hj)
    have hset : ∀ {s : PluginLifecycleRunner} (verdict : PluginInstanceStatus),
        named s = named r → statusOf (s.setStatus i.key verdict) i.key = some verdict := by
      intro s verdict hs
      have hsome : (statusOf s i.key).isSome = true := by
        rw [isSome_statusOf, hs, ← isSome_statusOf, hstatus]
        rfl
      obtain ⟨old, hold⟩ := Option.isSome_iff_exists.mp hsome
      rw [statusOf_setStatus, if_pos rfl, hold, Option.map_some]
    unfold bootEffect
    by_cases hp : progress.aborted = true
    · rw [if_pos hp]
      have hout : outcomes progress.aborted (i :: rest) =
          (i, .notReached) :: outcomes progress.aborted rest := by
        rw [hp, outcomes, if_pos rfl]
      have hnamed : named (r.setStatus i.key .notReached) = named r := named_setStatus i.key _
      refine (ih progress hn.2 (hrest hnamed)).cons hn.1 hout ?_ hnamed ?_
        (hset .notReached rfl) (by simp [hp]) (by simp)
      · rw [eventsFor, if_pos rfl, List.append_nil]
        rfl
      · intro key hkey
        rw [statusOf_setStatus, if_neg hkey]
    · rw [if_neg hp]
      have hspec := @stagesEffect_spec options r i PLUGIN_BOOT_STAGES fun _ hs => hs
      have hout : outcomes progress.aborted (i :: rest) =
          (i, i.verdict) :: outcomes (decide (i.verdict = .failed)) rest := by
        rw [outcomes, if_neg hp]
      have hevents : (stagesEffect options r i PLUGIN_BOOT_STAGES).1.recorded =
          r.recorded ++ eventsFor (i, i.verdict) := by
        rw [hspec.recorded, eventsFor, if_neg (verdict_ne_notReached i), bootEvents]
      rw [Bool.not_eq_true] at hp
      dsimp only
      cases hfailure : (stagesEffect options r i PLUGIN_BOOT_STAGES).2 with
      | none =>
        have hboots : i.boots = true := boots_iff_passes.mpr (hspec.failure.mp hfailure)
        have hverdict : i.verdict = .ready := by rw [RuntimeInstance.verdict, if_pos hboots]
        have hready := hspec.status hfailure .ready rfl (by rw [hstatus]; rfl)
        refine (ih progress hn.2 (hrest hspec.named)).cons hn.1 (hout.trans ?_) hevents
          hspec.named hspec.others ?_ (by simp [hverdict]) (by simp [hverdict])
        · rw [hverdict, hp]
          rfl
        · rw [hready, hverdict]
          rfl
      | some d =>
        have hboots : i.boots = false := by
          rw [← Bool.not_eq_true, boots_iff_passes, ← hspec.failure, hfailure]
          simp
        have hothers : ∀ (verdict : PluginInstanceStatus) (key : JsString), key ≠ i.key →
            statusOf ((stagesEffect options r i PLUGIN_BOOT_STAGES).1.setStatus i.key verdict) key =
              statusOf r key := by
          intro verdict key hkey
          rw [statusOf_setStatus, if_neg hkey, hspec.others key hkey]
        have hnamed : ∀ verdict : PluginInstanceStatus,
            named ((stagesEffect options r i PLUGIN_BOOT_STAGES).1.setStatus i.key verdict) =
              named r := fun verdict => (named_setStatus i.key verdict).trans hspec.named
        dsimp only
        by_cases hf : i.fatal = true
        · have hverdict : i.verdict = .failed := by
            simp [RuntimeInstance.verdict, hboots, hf]
          rw [if_pos hf]
          refine (ih ⟨progress.diagnostics ++ [d], true, progress.degraded⟩ hn.2
            (hrest (hnamed .failed))).cons hn.1 (hout.trans ?_) hevents (hnamed .failed)
            (hothers .failed) ?_ (by simp [hverdict]) (by simp [hverdict])
          · rw [hverdict]
            rfl
          · rw [hset .failed hspec.named, hverdict]
        · have hverdict : i.verdict = .degraded := by
            simp [RuntimeInstance.verdict, hboots, hf]
          rw [if_neg hf]
          refine (ih ⟨progress.diagnostics ++ [d], progress.aborted, true⟩ hn.2
            (hrest (hnamed .degraded))).cons hn.1 (hout.trans ?_) hevents (hnamed .degraded)
            (hothers .degraded) ?_ (by simp [hverdict]) (by simp [hverdict])
          · rw [hverdict, hp]
            rfl
          · rw [hset .degraded hspec.named, hverdict]

end Outcomes

section Views

variable {r : PluginLifecycleRunner} {instances : List RuntimeInstance}

lemma stageEvents_key (i : RuntimeInstance) (stages : List PluginLifecycleStage) :
    ∀ e ∈ stageEvents i stages, e.key = i.key := by
  induction stages with
  | nil => simp [stageEvents]
  | cons stage stages ih =>
    intro e he
    unfold stageEvents at he
    rcases List.mem_cons.mp he with rfl | he
    · rfl
    · split_ifs at he
      · exact ih e he
      · cases he

lemma stageEvents_stages (i : RuntimeInstance) (stages : List PluginLifecycleStage) :
    (stageEvents i stages).map (·.stage) <+: stages := by
  induction stages with
  | nil => exact List.prefix_rfl
  | cons stage stages ih =>
    unfold stageEvents
    rw [List.map_cons]
    refine (List.prefix_cons_inj stage).mpr ?_
    split_ifs
    · exact ih
    · exact List.nil_prefix

lemma stageOutcome_passes {i : RuntimeInstance} {stage : PluginLifecycleStage}
    (h : i.passes stage = true) :
    stageOutcome (i.hooks stage) = .ok ∨ stageOutcome (i.hooks stage) = .skipped := by
  unfold RuntimeInstance.passes at h
  rcases (Bool.or_eq_true _ _).mp h with h | h
  · right
    rw [of_decide_eq_true h]
    rfl
  · left
    rw [of_decide_eq_true h]
    rfl

/-- Only the last event of an instance may be a failure. -/
lemma stageEvents_dropLast (i : RuntimeInstance) (stages : List PluginLifecycleStage) :
    ∀ e ∈ (stageEvents i stages).dropLast, e.outcome = .ok ∨ e.outcome = .skipped := by
  induction stages with
  | nil => simp [stageEvents]
  | cons stage stages ih =>
    intro e he
    unfold stageEvents at he
    split_ifs at he with hpasses
    · cases hrest : stageEvents i stages with
      | nil => simp [hrest] at he
      | cons first rest =>
        rw [hrest, List.dropLast_cons_of_ne_nil (List.cons_ne_nil first rest), ← hrest] at he
        rcases List.mem_cons.mp he with rfl | he
        · exact stageOutcome_passes hpasses
        · exact ih e he
    · cases he

lemma eventsFor_key (q : RuntimeInstance × PluginInstanceStatus) :
    ∀ e ∈ eventsFor q, e.key = q.1.key := by
  unfold eventsFor
  split_ifs
  · simp
  · exact stageEvents_key q.1 PLUGIN_BOOT_STAGES

/-- With distinct keys, the events under a key are those of its instance. -/
lemma filter_eventsFor {qs : List (RuntimeInstance × PluginInstanceStatus)}
    (hn : (qs.map fun q => q.1.key).Nodup) {q : RuntimeInstance × PluginInstanceStatus}
    (hq : q ∈ qs) : (qs.flatMap eventsFor).filter (fun e => e.key = q.1.key) = eventsFor q := by
  have hother : ∀ p : RuntimeInstance × PluginInstanceStatus, p.1.key ≠ q.1.key →
      (eventsFor p).filter (fun e => e.key = q.1.key) = [] := by
    intro p hne
    rw [List.filter_eq_nil_iff]
    intro e he
    simpa [eventsFor_key p e he] using hne
  induction qs with
  | nil => cases hq
  | cons p qs ih =>
    rw [List.map_cons, List.nodup_cons] at hn
    rw [List.flatMap_cons, List.filter_append]
    rcases List.mem_cons.mp hq with rfl | hq
    · have hself : (eventsFor q).filter (fun e => e.key = q.1.key) = eventsFor q := by
        rw [List.filter_eq_self]
        intro e he
        simpa using eventsFor_key q e he
      have hrest : (qs.flatMap eventsFor).filter (fun e => e.key = q.1.key) = [] := by
        rw [List.filter_flatMap, List.flatMap_eq_nil_iff]
        intro p hp
        refine hother p fun heq => hn.1 ?_
        exact heq ▸ List.mem_map_of_mem (f := fun q : RuntimeInstance × _ => q.1.key) hp
      rw [hself, hrest, List.append_nil]
    · have hne : p.1.key ≠ q.1.key := fun heq => hn.1 (heq ▸ List.mem_map_of_mem
        (f := fun q : RuntimeInstance × PluginInstanceStatus => q.1.key) hq)
      rw [hother p hne, List.nil_append]
      exact ih hn.2 hq

/-- The catalog of a new runner, with distinct keys, lists the instances in their order. -/
lemma named_newRunner (hn : (options.instances.map (·.key)).Nodup) :
    named (newRunner options) = options.instances.map fun i => (i.key, i.key) := by
  have hmap : (options.instances.map fun i => (i.key, pendingEntry i)).map Prod.fst =
      options.instances.map (·.key) := by
    rw [List.map_map]
    rfl
  have hentries := foldl_set_of_nodup (options.instances.map fun i => (i.key, pendingEntry i)) []
    (by rwa [List.nil_append, hmap])
  rw [List.foldl_map, List.nil_append] at hentries
  rw [named, newRunner, hentries, List.map_map]
  rfl

/-- The entries of a catalog whose keys are distinct, by their statuses. -/
lemma map_entries (hn : ((named r).map Prod.fst).Nodup) :
    (named r).map (fun n => (n.2, statusOf r n.1)) =
      r.entries.map fun e => (e.2.key, some e.2.status) := by
  rw [named, List.map_map]
  refine List.map_congr_left fun e he => ?_
  have hkeys : (named r).map Prod.fst = keys r.entries := by
    rw [named, List.map_map]
    rfl
  have hget : InsertionMap.get r.entries e.1 = some e.2 := get_of_mem (hkeys ▸ hn) he
  simp only [Function.comp_apply, statusOf, hget, Option.map_some]

/-- A hook of an instance with this key has been called in the boot. -/
def Invoked (options : LifecycleRunnerOptions) (key : JsString) : Prop :=
  ∃ n r i stage work stages rest progress,
    run (step options) (newRunner options) (List.replicate n .boot) = some r ∧
      r.boot = .hook i stage work stages rest progress ∧ i.key = key

/-- With distinct keys, an instance ends as one thing. -/
lemma outcomes_unique (hn : (instances.map (·.key)).Nodup) {aborted : Bool}
    {p q : RuntimeInstance × PluginInstanceStatus} (hp : p ∈ outcomes aborted instances)
    (hq : q ∈ outcomes aborted instances) (hkey : p.1.key = q.1.key) : p = q := by
  rw [← outcomes_keys aborted] at hn
  exact List.inj_on_of_nodup_map hn hp hq hkey

/-- An instance that is not reached has had no hook called. -/
lemma not_invoked (hn : (options.instances.map (·.key)).Nodup)
    {q : RuntimeInstance × PluginInstanceStatus} (hq : q ∈ outcomes false options.instances)
    (hstatus : q.2 = .notReached) : ¬ Invoked options q.1.key := by
  rintro ⟨n, r, d, stage, work, stages, rest, progress, hrun, hphase, hkey⟩
  have hat := boot_at hn hrun
  rw [BootAt, hphase] at hat
  obtain ⟨before, done, hsplit, _, hbehind, _⟩ := hat
  have hout := outcomes_append (d :: rest) fun j hj => (hbehind j hj).1
  rw [← hsplit] at hout
  have hd : (d, d.verdict) ∈ outcomes false options.instances := by
    rw [hout, outcomes, if_neg Bool.false_ne_true]
    exact List.mem_append_right _ List.mem_cons_self
  have heq := outcomes_unique hn hd hq hkey
  exact verdict_ne_notReached d ((congrArg Prod.snd heq).trans hstatus)

/-- Entries, events, outcome and health of a boot say the same. -/
structure BootViews (options : LifecycleRunnerOptions) (r : PluginLifecycleRunner)
    (catalog : HostCatalog) : Prop where
  keys : catalog.entries.map (·.key) = options.instances.map (·.key)
  once : (catalog.entries.filter fun e => e.status = .failed).length ≤ 1
  around : ∀ before e after, catalog.entries = before ++ e :: after → e.status = .failed →
    (∀ b ∈ before, b.status = .ready ∨ b.status = .degraded) ∧
      ∀ a ∈ after, a.status = .notReached ∧ (∀ event ∈ r.recorded, event.key ≠ a.key) ∧
        ¬ Invoked options a.key
  unfailed : (∀ e ∈ catalog.entries, e.status ≠ .failed) →
    ∀ e ∈ catalog.entries, e.status = .ready ∨ e.status = .degraded
  events : ∀ i ∈ options.instances,
    (r.recorded.filter fun e => e.key = i.key).map (·.stage) <+: PLUGIN_BOOT_STAGES ∧
      ∀ e ∈ (r.recorded.filter fun e => e.key = i.key).dropLast,
        e.outcome = .ok ∨ e.outcome = .skipped
  aborted : catalog.outcome = .bootAborted ↔ ∃ e ∈ catalog.entries, e.status = .failed
  degraded : catalog.outcome = .degradedReady ↔
    (∀ e ∈ catalog.entries, e.status ≠ .failed) ∧ ∃ e ∈ catalog.entries, e.status = .degraded
  ready : catalog.outcome = .ready ↔
    ∀ e ∈ catalog.entries, e.status ≠ .failed ∧ e.status ≠ .degraded
  health : (aggregateHealth catalog).status =
    match catalog.outcome with
    | .bootAborted => .failed
    | .degradedReady => .degraded
    | .ready => .ready

end Views

section BootRun

variable {r : PluginLifecycleRunner}

/-- The entries of the catalog, with distinct keys, are what the instances end as. -/
def Listed (instances : List RuntimeInstance) (entries : List CatalogEntry) : Prop :=
  entries.map (fun e => (e.key, e.status)) =
    (outcomes false instances).map fun q => (q.1.key, q.2)

variable {instances : List RuntimeInstance} {entries : List CatalogEntry}

lemma Listed.forall (h : Listed instances entries)
    (P : JsString → PluginInstanceStatus → Prop) :
    (∀ e ∈ entries, P e.key e.status) ↔ ∀ q ∈ outcomes false instances, P q.1.key q.2 := by
  have hmem : (∀ p ∈ entries.map (fun e => (e.key, e.status)), P p.1 p.2) ↔
      ∀ p ∈ (outcomes false instances).map (fun q => (q.1.key, q.2)), P p.1 p.2 := by rw [h]
  simpa only [List.forall_mem_map] using hmem

lemma Listed.exists (h : Listed instances entries) (status : PluginInstanceStatus) :
    (∃ e ∈ entries, e.status = status) ↔ ∃ q ∈ outcomes false instances, q.2 = status := by
  have hall := h.forall fun _ s => s ≠ status
  rw [← not_iff_not]
  push Not
  exact hall

lemma Listed.keys (h : Listed instances entries) :
    entries.map (·.key) = instances.map (·.key) := by
  have hmap := congrArg (List.map Prod.fst) h
  simp only [List.map_map, Function.comp_def] at hmap
  exact hmap.trans (outcomes_keys false instances)

lemma Listed.statuses (h : Listed instances entries) :
    entries.map (·.status) = (outcomes false instances).map Prod.snd := by
  have hmap := congrArg (List.map Prod.snd) h
  simpa only [List.map_map, Function.comp_def] using hmap

lemma Listed.split (h : Listed instances entries) :
    (∀ e ∈ entries, e.status = .ready ∨ e.status = .degraded) ∨
      ∃ (before : List PluginInstanceStatus) (n : ℕ),
        entries.map (·.status) = before ++ .failed :: List.replicate n .notReached ∧
          ∀ s ∈ before, s = .ready ∨ s = .degraded := by
  rcases outcomes_split instances with hall | ⟨before, d, rest, heq, hbefore⟩
  · exact Or.inl ((h.forall fun _ s => s = .ready ∨ s = .degraded).mpr hall)
  · right
    refine ⟨before.map Prod.snd, rest.length, ?_, List.forall_mem_map.mpr hbefore⟩
    rw [h.statuses, heq, List.map_append, List.map_cons, List.map_map]
    congr 2
    exact List.map_const'

/-- An entry that failed has ready or degraded entries before it, and behind it no entry that
was reached. -/
lemma Listed.around (h : Listed instances entries) {before after : List CatalogEntry}
    {e : CatalogEntry} (hentries : entries = before ++ e :: after) (he : e.status = .failed) :
    (∀ b ∈ before, b.status = .ready ∨ b.status = .degraded) ∧
      ∀ a ∈ after, a.status = .notReached := by
  rcases h.split with hall | ⟨ahead, n, heq, hahead⟩
  · exfalso
    have hready := hall e (by simp [hentries])
    simp [he] at hready
  · have hnot : PluginInstanceStatus.failed ∉ ahead := by
      intro hmem
      simpa using hahead _ hmem
    have hbehind : PluginInstanceStatus.failed ∉ List.replicate n PluginInstanceStatus.notReached := by
      intro hmem
      cases List.eq_of_mem_replicate hmem
    rw [hentries, List.map_append, List.map_cons, he] at heq
    obtain ⟨hbefore, _, hafter⟩ := (List.append_cons_inj_of_notMem hnot hbehind).mp heq.symm
    refine ⟨fun b hb => hahead _ (hbefore ▸ List.mem_map_of_mem hb), fun a ha => ?_⟩
    have hmem : a.status ∈ List.replicate n PluginInstanceStatus.notReached :=
      hafter ▸ List.mem_map_of_mem ha
    exact List.eq_of_mem_replicate hmem

lemma Listed.once (h : Listed instances entries) :
    (entries.filter fun e => e.status = .failed).length ≤ 1 := by
  rcases h.split with hall | ⟨ahead, n, heq, hahead⟩
  · have hnil : (entries.filter fun e => e.status = .failed) = [] := by
      rw [List.filter_eq_nil_iff]
      intro e he hfailed
      have hready := hall e he
      simp [of_decide_eq_true hfailed] at hready
    rw [hnil]
    exact Nat.zero_le 1
  · have hcount : (entries.filter fun e => e.status = .failed).length =
        (entries.map (·.status)).countP fun s => s = .failed := by
      rw [List.countP_map, List.countP_eq_length_filter]
      rfl
    have hnone : ahead.countP (fun s => s = .failed) = 0 := by
      rw [List.countP_eq_zero]
      intro s hs
      rcases hahead s hs with rfl | rfl <;> simp
    have hbehind : (List.replicate n PluginInstanceStatus.notReached).countP
        (fun s => s = .failed) = 0 := by simp [List.countP_replicate]
    rw [hcount, heq, List.countP_append, List.countP_cons, hnone, hbehind]
    simp

lemma Listed.unfailed (h : Listed instances entries)
    (hnone : ∀ e ∈ entries, e.status ≠ .failed) :
    ∀ e ∈ entries, e.status = .ready ∨ e.status = .degraded := by
  rcases h.split with hall | ⟨ahead, n, heq, _⟩
  · exact hall
  · exfalso
    have hmem : PluginInstanceStatus.failed ∈ entries.map (·.status) := by simp [heq]
    obtain ⟨e, he, hfailed⟩ := List.mem_map.mp hmem
    exact hnone e he hfailed

lemma aggregateHealth_status (catalog : HostCatalog) : (aggregateHealth catalog).status =
    if ∃ e ∈ catalog.entries, e.status = .failed ∨ e.status = .notReached then .failed
    else if ∃ e ∈ catalog.entries, e.status = .degraded then .degraded else .ready := by
  have hne : ∀ p : CatalogEntry → Bool,
      sorted ((catalog.entries.filter p).map (·.key)) ≠ [] ↔ ∃ e ∈ catalog.entries, p e = true := by
    intro p
    rw [ne_eq, ← List.length_eq_zero_iff, (sorted_perm _).length_eq, List.length_eq_zero_iff,
      List.map_eq_nil_iff, List.filter_eq_nil_iff]
    push Not
    rfl
  simp only [aggregateHealth, hne, decide_eq_true_eq]

/-- Health by the outcome of the boot. -/
lemma Listed.health (h : Listed instances entries) {progress : BootProgress}
    (haborted : progress.aborted = true ↔ ∃ e ∈ entries, e.status = .failed)
    (hdegraded : progress.degraded = true ↔ ∃ e ∈ entries, e.status = .degraded)
    (diagnostics : List PluginDiagnostic) :
    (aggregateHealth ⟨bootOutcome progress, entries, diagnostics⟩).status =
      match bootOutcome progress with
      | .bootAborted => .failed
      | .degradedReady => .degraded
      | .ready => .ready := by
  have hfailed : (∃ e ∈ entries, e.status = .failed ∨ e.status = .notReached) ↔
      progress.aborted = true := by
    rw [haborted]
    constructor
    · intro ⟨e, he, hstatus⟩
      by_contra hnone
      push Not at hnone
      have hready := h.unfailed hnone e he
      rcases hstatus with hstatus | hstatus <;> simp [hstatus] at hready
    · exact fun ⟨e, he, hstatus⟩ => ⟨e, he, Or.inl hstatus⟩
  rw [aggregateHealth_status]
  simp only [hfailed, ← hdegraded, bootOutcome]
  cases progress.aborted <;> cases progress.degraded <;> rfl

/-- The state in which `boot` has returned. -/
def booted (options : LifecycleRunnerOptions) : PluginLifecycleRunner :=
  let after := bootEffect options (newRunner options) ⟨[], false, false⟩ options.instances
  { after.1 with
    boot := .returned (bootOutcome after.2) (sortDiagnostics after.2.diagnostics) }

lemma boots_booted (options : LifecycleRunnerOptions) :
    BootsTo options (newRunner options) (booted options) := by
  have hcall : step options (newRunner options) .boot =
      some (bootLoop (newRunner options) ⟨[], false, false⟩ options.instances) := rfl
  exact BootsTo.head hcall (bootLoop_boots ⟨[], false, false⟩ options.instances)

/-- With distinct keys, what the catalog lists. -/
lemma booted_listed (hn : (options.instances.map (·.key)).Nodup)
    (hspec : BootSpec (newRunner options) ⟨[], false, false⟩ options.instances
      (bootEffect options (newRunner options) ⟨[], false, false⟩ options.instances)) :
    Listed options.instances ((booted options).entries.map Prod.snd) := by
  have hnamed : named (booted options) = options.instances.map fun i => (i.key, i.key) :=
    hspec.named.trans (named_newRunner hn)
  have hfst : (named (booted options)).map Prod.fst = options.instances.map (·.key) := by
    rw [hnamed, List.map_map]
    rfl
  have hentries := map_entries (r := booted options) (hfst ▸ hn)
  have hstatuses : (options.instances.map fun i => (i.key, statusOf (booted options) i.key)) =
      (outcomes false options.instances).map fun q => (q.1.key, some q.2) := by
    have hfst := congrArg (List.map fun i => (i.key, statusOf (booted options) i.key))
      (outcomes_fst false options.instances)
    rw [← hfst, List.map_map]
    refine List.map_congr_left fun q hq => ?_
    exact congrArg (Prod.mk q.1.key) (hspec.statuses q hq)
  rw [hnamed, List.map_map] at hentries
  have hsome : ((booted options).entries.map fun e => (e.2.key, some e.2.status)) =
      (outcomes false options.instances).map fun q => (q.1.key, some q.2) :=
    hentries.symm.trans hstatuses
  have hget := congrArg
    (List.map fun p : JsString × Option PluginInstanceStatus => (p.1, p.2.getD .pending)) hsome
  rw [List.map_map, List.map_map] at hget
  rw [Listed, List.map_map]
  exact hget

lemma bootOutcome_aborted {progress : BootProgress} :
    bootOutcome progress = .bootAborted ↔ progress.aborted = true := by
  unfold bootOutcome
  cases progress.aborted <;> cases progress.degraded <;> simp

lemma bootOutcome_degraded {progress : BootProgress} :
    bootOutcome progress = .degradedReady ↔
      progress.aborted = false ∧ progress.degraded = true := by
  unfold bootOutcome
  cases progress.aborted <;> cases progress.degraded <;> simp

lemma bootOutcome_ready {progress : BootProgress} :
    bootOutcome progress = .ready ↔ progress.aborted = false ∧ progress.degraded = false := by
  unfold bootOutcome
  cases progress.aborted <;> cases progress.degraded <;> simp

/-- The views of a boot whose instances have distinct keys. -/
lemma booted_views (hn : (options.instances.map (·.key)).Nodup) :
    ∃ catalog, catalogOf (booted options) = some catalog ∧
      BootViews options (booted options) catalog := by
  have hspec := @bootEffect_spec options _ _ ⟨[], false, false⟩ hn newRunner_catalogued
  have hlisted := booted_listed hn hspec
  have haborted : (bootEffect options (newRunner options) ⟨[], false, false⟩
      options.instances).2.aborted = true ↔
        ∃ e ∈ (booted options).entries.map Prod.snd, e.status = .failed := by
    rw [hlisted.exists, hspec.aborted]
    exact or_iff_right Bool.false_ne_true
  have hdegraded : (bootEffect options (newRunner options) ⟨[], false, false⟩
      options.instances).2.degraded = true ↔
        ∃ e ∈ (booted options).entries.map Prod.snd, e.status = .degraded := by
    rw [hlisted.exists, hspec.degraded]
    exact or_iff_right Bool.false_ne_true
  have hunder : ∀ q ∈ outcomes false options.instances,
      (booted options).recorded.filter (fun e => e.key = q.1.key) = eventsFor q := by
    intro q hq
    have hrecorded : (booted options).recorded =
        (outcomes false options.instances).flatMap eventsFor := hspec.recorded
    rw [hrecorded]
    exact filter_eventsFor ((outcomes_keys false options.instances).symm ▸ hn) hq
  have hunreached : ∀ e ∈ (booted options).entries.map Prod.snd, e.status = .notReached →
      (∀ event ∈ (booted options).recorded, event.key ≠ e.key) ∧ ¬ Invoked options e.key := by
    refine (hlisted.forall fun key status => status = .notReached →
      (∀ event ∈ (booted options).recorded, event.key ≠ key) ∧ ¬ Invoked options key).mpr ?_
    intro q hq hstatus
    refine ⟨fun event hevent hkey => ?_, not_invoked hn hq hstatus⟩
    have hmem : event ∈ (booted options).recorded.filter (fun e => e.key = q.1.key) :=
      List.mem_filter.mpr ⟨hevent, decide_eq_true hkey⟩
    rw [hunder q hq, eventsFor, if_pos hstatus] at hmem
    cases hmem
  refine ⟨_, rfl, hlisted.keys, hlisted.once, ?_, hlisted.unfailed, ?_, ?_, ?_, ?_, ?_⟩
  · intro before e after hentries he
    obtain ⟨hbefore, hafter⟩ := hlisted.around hentries he
    refine ⟨hbefore, fun a ha => ⟨hafter a ha, hunreached a ?_ (hafter a ha)⟩⟩
    have hmem : a ∈ before ++ e :: after :=
      List.mem_append_right _ (List.mem_cons_of_mem _ ha)
    rwa [← hentries] at hmem
  · intro i hi
    rw [← outcomes_fst false options.instances] at hi
    obtain ⟨q, hq, rfl⟩ := List.mem_map.mp hi
    rw [hunder q hq, eventsFor]
    split_ifs
    · simp
    · exact ⟨stageEvents_stages q.1 _, stageEvents_dropLast q.1 _⟩
  · exact bootOutcome_aborted.trans haborted
  · refine bootOutcome_degraded.trans (and_congr ?_ hdegraded)
    rw [← Bool.not_eq_true, haborted]
    push Not
    rfl
  · refine bootOutcome_ready.trans ?_
    rw [← Bool.not_eq_true, haborted, ← Bool.not_eq_true, hdegraded]
    push Not
    exact (forall₂_and).symm
  · exact hlisted.health haborted hdegraded _

/-- A boot of instances with distinct keys returns, and its views agree. -/
theorem boot_views_agree (options : LifecycleRunnerOptions)
    (hn : (options.instances.map (·.key)).Nodup) :
    ∃ n r catalog, run (step options) (newRunner options) (List.replicate n .boot) = some r ∧
      catalogOf r = some catalog ∧ BootViews options r catalog := by
  obtain ⟨n, hrun⟩ := boots_booted options
  obtain ⟨catalog, hcatalog, hviews⟩ := booted_views hn
  exact ⟨n, _, catalog, hrun, hcatalog, hviews⟩

/-- An optional provider overruns its validation in front of an instance that requires it. -/
theorem boot_views_agree_degraded : ∃ n r catalog,
    run (step (providerOutcome .overruns)) (newRunner (providerOutcome .overruns))
        (List.replicate n .boot) = some r ∧
      catalogOf r = some catalog ∧ BootViews (providerOutcome .overruns) r catalog :=
  boot_views_agree (providerOutcome .overruns) (by decide)

end BootRun

end Appspine.Lifecycle

import Appspine.LifecycleShutdown
import Appspine.ResolverOwnership

/-!
# Providers before dependants

The runner goes through the instances in the order of a resolution graph, one instance at a
time. When a dependant registers, its providers are behind it, ready or degraded.
-/
namespace Appspine.Lifecycle
open JsText InsertionMap PluginManifest Transitions

variable {options : LifecycleRunnerOptions}

def statusOf (r : PluginLifecycleRunner) (key : JsString) : Option PluginInstanceStatus :=
  (InsertionMap.get r.entries key).map (·.status)

/-- `boot` is at the registration of an instance only when every other instance that provides
what it requires is ready. -/
def ProvidersReady (instances : List RuntimeInstance) (r : PluginLifecycleRunner) : Prop :=
  ∀ d work stages rest progress, r.boot = .hook d .register work stages rest progress →
    ∀ e ∈ instances, e.key ≠ d.key → (∃ c ∈ d.requires, c ∈ e.provides) →
      statusOf r e.key = some .ready

/-- No stage of the instance fails. -/
def RuntimeInstance.boots (i : RuntimeInstance) : Bool := PLUGIN_BOOT_STAGES.all i.passes

/-- `boot` gets to the instance and past its validation, and finds a hook to register it. -/
def ReachesRegister (instances : List RuntimeInstance) (d : RuntimeInstance) : Prop :=
  ∃ before rest, instances = before ++ d :: rest ∧ (∀ j ∈ before, ¬ j.Aborts) ∧
    d.passes .validate = true ∧ d.hooks .register ≠ none

/-- The providers of every instance whose registration hook is reached boot without a failure. -/
def ProvidersBoot (instances : List RuntimeInstance) : Prop :=
  ∀ d, ReachesRegister instances d → ∀ e ∈ instances, e.key ≠ d.key →
    (∃ c ∈ d.requires, c ∈ e.provides) → e.boots = true

/-- The runner's instances are those of the graph, in its order; policies, required flags and
hooks are arbitrary. -/
def InOrderOf {N : Type} (graph : Resolver.ResolutionGraph N) (instances : List RuntimeInstance) :
    Prop :=
  instances.map (fun i => (i.key, i.provides, i.requires)) =
    graph.instances.map (fun i => (i.key, i.provides, i.requires))

section Status

variable {r : PluginLifecycleRunner}

@[simp] lemma statusOf_setStatus (key key' : JsString) (status : PluginInstanceStatus) :
    statusOf (r.setStatus key status) key' =
      if key' = key then (statusOf r key').map (fun _ => status) else statusOf r key' := by
  simp only [statusOf, PluginLifecycleRunner.setStatus, get_modify]
  split_ifs
  · cases InsertionMap.get r.entries key' <;> rfl
  · rfl

@[simp] lemma statusOf_setError (key key' : JsString) (stage : PluginLifecycleStage)
    (message : JsString) : statusOf (r.setError key stage message) key' = statusOf r key' := by
  simp only [statusOf, PluginLifecycleRunner.setError, get_modify]
  split_ifs
  · cases InsertionMap.get r.entries key' <;> rfl
  · rfl

/-- The status an instance has after a stage. -/
def statusAfter : PluginLifecycleStage → PluginInstanceStatus
  | .validate => .validated
  | .register => .registered
  | .ready => .ready
  | .shutdown => .stopped

lemma statusOf_passStage (i : RuntimeInstance) {stage : PluginLifecycleStage}
    (hstage : stage ∈ PLUGIN_BOOT_STAGES) (outcome : StageOutcome) (key : JsString) :
    statusOf (passStage r i stage outcome) key =
      if key = i.key then (statusOf r key).map (fun _ => statusAfter stage) else statusOf r key := by
  cases stage with
  | validate => exact statusOf_setStatus i.key key .validated
  | register => exact statusOf_setStatus i.key key .registered
  | ready => exact statusOf_setStatus i.key key .ready
  | shutdown => simp [PLUGIN_BOOT_STAGES] at hstage

lemma statusOf_failStage (i : RuntimeInstance) (stage : PluginLifecycleStage) (error : StageError)
    (key : JsString) : statusOf (failStage r i stage error) key = statusOf r key :=
  statusOf_setError i.key key stage error.message

/-- Every instance has an entry in the catalog. -/
def Catalogued (options : LifecycleRunnerOptions) (r : PluginLifecycleRunner) : Prop :=
  ∀ i ∈ options.instances, (statusOf r i.key).isSome = true

lemma newRunner_catalogued : Catalogued options (newRunner options) := by
  have hset : ∀ (is : List RuntimeInstance) (m : Entries JsString CatalogEntry) (key : JsString),
      (key ∈ keys m ∨ ∃ i ∈ is, i.key = key) →
      key ∈ keys (is.foldl (fun m i => InsertionMap.set m i.key (pendingEntry i)) m) := by
    intro is
    induction is with
    | nil =>
      rintro m key (h | ⟨i, hi, _⟩)
      · exact h
      · cases hi
    | cons i is ih =>
      intro m key h
      apply ih
      rw [mem_keys_set]
      rcases h with h | ⟨j, hj, rfl⟩
      · exact Or.inl (Or.inr h)
      · rcases List.mem_cons.mp hj with rfl | hj
        · exact Or.inl (Or.inl rfl)
        · exact Or.inr ⟨j, hj, rfl⟩
  intro i hi
  have hmem := hset options.instances [] i.key (Or.inr ⟨i, hi, rfl⟩)
  cases hget : InsertionMap.get (newRunner options).entries i.key with
  | none => exact absurd hmem (get_eq_none.mp hget)
  | some entry => simp [statusOf, hget]

lemma Catalogued.of_status {r' : PluginLifecycleRunner} (h : Catalogued options r)
    (hsome : ∀ key, (statusOf r key).isSome = true → (statusOf r' key).isSome = true) :
    Catalogued options r' := fun i hi => hsome i.key (h i hi)

lemma Catalogued.setStatus (h : Catalogued options r) (key : JsString)
    (status : PluginInstanceStatus) : Catalogued options (r.setStatus key status) := by
  apply h.of_status
  intro key' hkey
  rw [statusOf_setStatus]
  split_ifs <;> simpa using hkey

lemma Catalogued.passStage (h : Catalogued options r) (i : RuntimeInstance)
    {stage : PluginLifecycleStage} (hstage : stage ∈ PLUGIN_BOOT_STAGES) (outcome : StageOutcome) :
    Catalogued options (passStage r i stage outcome) := by
  apply h.of_status
  intro key' hkey
  rw [statusOf_passStage i hstage]
  split_ifs <;> simpa using hkey

end Status

section Behind

variable {r r' : PluginLifecycleRunner} {before rest : List RuntimeInstance} {d : RuntimeInstance}
  {progress : BootProgress}

/-- The instances gone through have not ended the boot, and are ready or degraded. -/
def Behind (r : PluginLifecycleRunner) (before : List RuntimeInstance) : Prop :=
  ∀ j ∈ before, ¬ j.Aborts ∧ statusOf r j.key = some (if j.boots then .ready else .degraded)

lemma Behind.of_status (h : Behind r before)
    (hsame : ∀ j ∈ before, statusOf r' j.key = statusOf r j.key) : Behind r' before :=
  fun j hj => ⟨(h j hj).1, (hsame j hj).trans (h j hj).2⟩

/-- The boot of a runner whose keys are distinct, without a shutdown: what holds at each await. -/
def BootAt (options : LifecycleRunnerOptions) (r : PluginLifecycleRunner) : Prop :=
  match r.boot with
  | .hook d stage work stages rest progress => ∃ before done,
      options.instances = before ++ d :: rest ∧ progress.aborted = false ∧ Behind r before ∧
      PLUGIN_BOOT_STAGES = done ++ stage :: stages ∧ (∀ s ∈ done, d.passes s = true) ∧
      d.hooks stage = some work
  | .settled d failure rest progress => ∃ before,
      options.instances = before ++ d :: rest ∧ progress.aborted = false ∧ Behind r before ∧
      (failure = none ↔ d.boots = true) ∧ (failure = none → statusOf r d.key = some .ready)
  | _ => True

lemma key_ne_of_before (hn : (options.instances.map (·.key)).Nodup)
    (hsplit : options.instances = before ++ d :: rest) : ∀ j ∈ before, j.key ≠ d.key := by
  rw [hsplit, List.map_append, List.nodup_append] at hn
  intro j hj
  exact hn.2.2 _ (List.mem_map_of_mem hj) _ (by simp)

lemma Behind.passStage (hn : (options.instances.map (·.key)).Nodup)
    (hsplit : options.instances = before ++ d :: rest) (hb : Behind r before)
    {stage : PluginLifecycleStage} (hstage : stage ∈ PLUGIN_BOOT_STAGES) (outcome : StageOutcome) :
    Behind (passStage r d stage outcome) before := by
  apply hb.of_status
  intro j hj
  rw [statusOf_passStage d hstage, if_neg (key_ne_of_before hn hsplit j hj)]

/-- The last stage leaves the instance ready. -/
lemma ready_of_last (hcat : Catalogued options r) (hd : d ∈ options.instances)
    {stage : PluginLifecycleStage} {done : List PluginLifecycleStage}
    (hdone : PLUGIN_BOOT_STAGES = done ++ [stage]) (outcome : StageOutcome) :
    statusOf (passStage r d stage outcome) d.key = some .ready := by
  have hready : stage = .ready := by
    have hlast := congrArg List.getLast? hdone
    simpa [PLUGIN_BOOT_STAGES] using hlast.symm
  obtain ⟨status, hs⟩ := Option.isSome_iff_exists.mp (hcat d hd)
  rw [statusOf_passStage d (by simp [hdone]), if_pos rfl, hready, hs]
  rfl

lemma passes_append {stage : PluginLifecycleStage} {done : List PluginLifecycleStage}
    (hpass : ∀ s ∈ done, d.passes s = true) (h : d.passes stage = true) :
    ∀ s ∈ done ++ [stage], d.passes s = true := by
  intro s hs
  rcases List.mem_append.mp hs with hs | hs
  · exact hpass s hs
  · rw [List.mem_singleton.mp hs]
    exact h

lemma runBootStages_at (hn : (options.instances.map (·.key)).Nodup)
    (hsplit : options.instances = before ++ d :: rest) (hp : progress.aborted = false)
    {stages done : List PluginLifecycleStage} (hcat : Catalogued options r) (hb : Behind r before)
    (hdone : PLUGIN_BOOT_STAGES = done ++ stages) (hpass : ∀ s ∈ done, d.passes s = true)
    (hlast : stages = [] → statusOf r d.key = some .ready) :
    BootAt options (runBootStages r d rest progress stages) ∧
      Catalogued options (runBootStages r d rest progress stages) := by
  induction stages generalizing r done with
  | nil =>
    rw [List.append_nil] at hdone
    refine ⟨⟨before, hsplit, hp, hb, ?_, fun _ => hlast rfl⟩, hcat⟩
    have hboots : d.boots = true := by
      rw [RuntimeInstance.boots, List.all_eq_true, hdone]
      exact hpass
    simp [hboots]
  | cons stage stages ih =>
    unfold runBootStages
    cases hhook : d.hooks stage with
    | some work => exact ⟨⟨before, done, hsplit, hp, hb, hdone, hpass, hhook⟩, hcat⟩
    | none =>
      have hstage : stage ∈ PLUGIN_BOOT_STAGES := by simp [hdone]
      have hthis : d.passes stage = true := by simp [RuntimeInstance.passes, hhook]
      refine ih (hcat.passStage d hstage .skipped) (hb.passStage hn hsplit hstage .skipped)
        (show PLUGIN_BOOT_STAGES = (done ++ [stage]) ++ stages by simp [hdone])
        (passes_append hpass hthis) ?_
      rintro rfl
      exact ready_of_last hcat (by simp [hsplit]) hdone .skipped

lemma bootLoop_at (hn : (options.instances.map (·.key)).Nodup)
    (hsplit : options.instances = before ++ rest) (hcat : Catalogued options r)
    (hb : progress.aborted = false → Behind r before) :
    BootAt options (bootLoop r progress rest) ∧ Catalogued options (bootLoop r progress rest) := by
  induction rest generalizing r before with
  | nil => exact ⟨trivial, hcat⟩
  | cons i rest ih =>
    unfold bootLoop
    by_cases hp : progress.aborted = true
    · rw [if_pos hp]
      exact ih (show options.instances = (before ++ [i]) ++ rest by simp [hsplit])
        (hcat.setStatus i.key .notReached) (fun hrun => absurd hp (by simp [hrun]))
    · rw [if_neg hp]
      rw [Bool.not_eq_true] at hp
      exact runBootStages_at hn hsplit hp hcat (hb hp) (List.nil_append _).symm (by simp)
        (by simp [PLUGIN_BOOT_STAGES])

lemma passes_of_hook {stage : PluginLifecycleStage} {work : HookResult}
    (hhook : d.hooks stage = some work) : d.passes stage = true ↔ work = .returns := by
  simp [RuntimeInstance.passes, hhook]

lemma settleStage_at (hn : (options.instances.map (·.key)).Nodup)
    {stage : PluginLifecycleStage} {work : HookResult} {stages : List PluginLifecycleStage}
    (h : BootAt options r) (hphase : r.boot = .hook d stage work stages rest progress)
    (hcat : Catalogued options r) :
    BootAt options (settleStage options r d stage work stages rest progress) ∧
      Catalogued options (settleStage options r d stage work stages rest progress) := by
  rw [BootAt, hphase] at h
  obtain ⟨before, done, hsplit, hp, hb, hdone, hpass, hhook⟩ := h
  have hstage : stage ∈ PLUGIN_BOOT_STAGES := by simp [hdone]
  unfold settleStage
  cases hw : withTimeout work (options.stageTimeoutMs.getD DEFAULT_STAGE_TIMEOUT_MS) stage d.key with
  | none =>
    have hthis : d.passes stage = true := (passes_of_hook hhook).mpr (withTimeout_eq_none.mp hw)
    refine runBootStages_at hn hsplit hp (hcat.passStage d hstage .ok)
      (hb.passStage hn hsplit hstage .ok)
      (show PLUGIN_BOOT_STAGES = (done ++ [stage]) ++ stages by simp [hdone])
      (passes_append hpass hthis) ?_
    rintro rfl
    exact ready_of_last hcat (by simp [hsplit]) hdone .ok
  | some error =>
    have hfail : d.boots = false := by
      rw [RuntimeInstance.boots, List.all_eq_false]
      refine ⟨stage, hstage, fun hthis => ?_⟩
      rw [withTimeout_eq_none.mpr ((passes_of_hook hhook).mp hthis)] at hw
      cases hw
    have hsame : ∀ key, statusOf (failStage r d stage error) key = statusOf r key :=
      statusOf_failStage d stage error
    refine ⟨⟨before, hsplit, hp, hb.of_status (fun j _ => hsame j.key), by simp [hfail], by simp⟩, ?_⟩
    exact hcat.of_status (fun key hkey => (hsame key).symm ▸ hkey)

lemma aborts_iff_fatal {i : RuntimeInstance} :
    i.Aborts ↔ i.fatal = true ∧ i.boots = false := by
  simp [RuntimeInstance.Aborts, RuntimeInstance.boots, List.all_eq_false]

lemma resumeBoot_at (hn : (options.instances.map (·.key)).Nodup)
    {failure : Option PluginDiagnostic} (h : BootAt options r)
    (hphase : r.boot = .settled d failure rest progress) (hcat : Catalogued options r) :
    BootAt options (resumeBoot r d failure rest progress) ∧
      Catalogued options (resumeBoot r d failure rest progress) := by
  rw [BootAt, hphase] at h
  obtain ⟨before, hsplit, hp, hb, hboots, hready⟩ := h
  have hsplit' : options.instances = (before ++ [d]) ++ rest := by simp [hsplit]
  unfold resumeBoot
  cases failure with
  | none =>
    have hd : d.boots = true := hboots.mp rfl
    refine bootLoop_at hn hsplit' hcat (fun _ => ?_)
    intro j hj
    rcases List.mem_append.mp hj with hj | hj
    · exact hb j hj
    · obtain rfl := List.mem_singleton.mp hj
      exact ⟨by simp [aborts_iff_fatal, hd], by simp [hd, hready rfl]⟩
  | some diagnostic =>
    have hd : d.boots = false := by
      rw [← Bool.not_eq_true, ← hboots]
      simp
    by_cases hf : d.fatal = true
    · simp only [hf, if_true]
      exact bootLoop_at hn hsplit' (hcat.setStatus d.key .failed) (by simp)
    · simp only [hf, if_false, Bool.false_eq_true]
      refine bootLoop_at hn hsplit' (hcat.setStatus d.key .degraded) (fun _ => ?_)
      intro j hj
      rcases List.mem_append.mp hj with hj | hj
      · refine ⟨(hb j hj).1, ?_⟩
        rw [statusOf_setStatus, if_neg (key_ne_of_before hn hsplit j hj)]
        exact (hb j hj).2
      · obtain rfl := List.mem_singleton.mp hj
        obtain ⟨status, hs⟩ := Option.isSome_iff_exists.mp (hcat j (by simp [hsplit]))
        exact ⟨by simp [aborts_iff_fatal, hf], by simp [hd, hs]⟩

lemma step_at (hn : (options.instances.map (·.key)).Nodup)
    (h : BootAt options r ∧ Catalogued options r) (hstep : step options r .boot = some r') :
    BootAt options r' ∧ Catalogued options r' := by
  simp only [step] at hstep
  cases hb : r.boot with
  | idle =>
    rw [hb] at hstep
    obtain rfl := Option.some.inj hstep
    exact bootLoop_at hn (List.nil_append _).symm h.2 (fun _ _ hj => by cases hj)
  | hook i stage work stages rest progress =>
    rw [hb] at hstep
    obtain rfl := Option.some.inj hstep
    exact settleStage_at hn h.1 hb h.2
  | settled i failure rest progress =>
    rw [hb] at hstep
    obtain rfl := Option.some.inj hstep
    exact resumeBoot_at hn h.1 hb h.2
  | returned outcome diagnostics =>
    rw [hb] at hstep
    cases hstep

lemma boot_at (hn : (options.instances.map (·.key)).Nodup) {n : ℕ}
    (hrun : run (step options) (newRunner options) (List.replicate n .boot) = some r) :
    BootAt options r := by
  have hall : ∀ m r r', BootAt options r ∧ Catalogued options r →
      run (step options) r (List.replicate m .boot) = some r' →
      BootAt options r' ∧ Catalogued options r' := by
    intro m
    induction m with
    | zero =>
      intro r r' h hrun
      exact Option.some.inj hrun ▸ h
    | succ m ih =>
      intro r r' h hrun
      obtain ⟨u, hu, hrun⟩ := run_cons.mp hrun
      exact ih u r' (step_at hn h hu) hrun
  have hnew : BootAt options (newRunner options) := trivial
  exact (hall n _ r ⟨hnew, newRunner_catalogued⟩ hrun).1

end Behind

section Reach

variable {r r' s : PluginLifecycleRunner}

/-- `boot` alone gets from one await to the other. -/
def BootsTo (options : LifecycleRunnerOptions) (r r' : PluginLifecycleRunner) : Prop :=
  ∃ n, run (step options) r (List.replicate n .boot) = some r'

lemma BootsTo.refl : BootsTo options r r := ⟨0, rfl⟩

lemma BootsTo.head (hstep : step options r .boot = some r') (h : BootsTo options r' s) :
    BootsTo options r s := by
  obtain ⟨n, hn⟩ := h
  exact ⟨n + 1, run_cons.mpr ⟨r', hstep, hn⟩⟩

lemma BootsTo.trans (h : BootsTo options r r') (h' : BootsTo options r' s) : BootsTo options r s := by
  obtain ⟨m, hm⟩ := h
  obtain ⟨n, hn⟩ := h'
  refine ⟨m + n, ?_⟩
  rw [List.replicate_add]
  exact run_append.mpr ⟨r', hm, hn⟩

/-- The stages of one instance come to an end. -/
lemma runBootStages_settles (options : LifecycleRunnerOptions) (r : PluginLifecycleRunner)
    (d : RuntimeInstance) (rest : List RuntimeInstance) (progress : BootProgress) (stages : List PluginLifecycleStage) :
    ∃ r' failure, BootsTo options (runBootStages r d rest progress stages) r' ∧
      r'.boot = .settled d failure rest progress ∧
      (failure ≠ none → ∃ stage ∈ stages, d.passes stage = false) := by
  induction stages generalizing r with
  | nil => exact ⟨_, none, BootsTo.refl, rfl, fun h => absurd rfl h⟩
  | cons stage stages ih =>
    have hcons : ∀ {failure : Option PluginDiagnostic},
        (failure ≠ none → ∃ s ∈ stages, d.passes s = false) →
        failure ≠ none → ∃ s ∈ stage :: stages, d.passes s = false := by
      intro failure hwhy hne
      obtain ⟨s, hs, hfail⟩ := hwhy hne
      exact ⟨s, List.mem_cons_of_mem _ hs, hfail⟩
    unfold runBootStages
    cases hhook : d.hooks stage with
    | none =>
      obtain ⟨r', failure, hto, hsettled, hwhy⟩ := ih (passStage r d stage .skipped)
      exact ⟨r', failure, hto, hsettled, hcons hwhy⟩
    | some work =>
      set w : PluginLifecycleRunner := { r with boot := .hook d stage work stages rest progress }
      have hstep : step options w .boot =
          some (settleStage options w d stage work stages rest progress) := rfl
      cases hw : withTimeout work (options.stageTimeoutMs.getD DEFAULT_STAGE_TIMEOUT_MS) stage d.key with
      | none =>
        simp only [settleStage, hw] at hstep
        obtain ⟨r', failure, hto, hsettled, hwhy⟩ := ih (passStage w d stage .ok)
        exact ⟨r', failure, BootsTo.head hstep hto, hsettled, hcons hwhy⟩
      | some error =>
        simp only [settleStage, hw] at hstep
        refine ⟨_, _, BootsTo.head hstep BootsTo.refl, rfl, fun _ => ⟨stage, by simp, ?_⟩⟩
        rw [← Bool.not_eq_true, passes_of_hook hhook, ← withTimeout_eq_none, hw]
        simp

/-- An instance that does not end the boot is left behind. -/
lemma boot_past (options : LifecycleRunnerOptions) (r : PluginLifecycleRunner)
    {before : List RuntimeInstance} (rest : List RuntimeInstance) (progress : BootProgress)
    (hp : progress.aborted = false) (hbefore : ∀ j ∈ before, ¬ j.Aborts) :
    ∃ r' progress', progress'.aborted = false ∧
      BootsTo options (bootLoop r progress (before ++ rest)) (bootLoop r' progress' rest) := by
  induction before generalizing r progress with
  | nil => exact ⟨r, progress, hp, BootsTo.refl⟩
  | cons j before ih =>
    have hbefore' : ∀ k ∈ before, ¬ k.Aborts := fun k hk => hbefore k (List.mem_cons_of_mem _ hk)
    obtain ⟨u, failure, hto, hsettled, hwhy⟩ :=
      runBootStages_settles options r j (before ++ rest) progress PLUGIN_BOOT_STAGES
    have hstart : bootLoop r progress (j :: before ++ rest) =
        runBootStages r j (before ++ rest) progress PLUGIN_BOOT_STAGES := by
      simp [bootLoop, hp]
    have hresume : step options u .boot = some (resumeBoot u j failure (before ++ rest) progress) := by
      simp only [step, hsettled]
    rw [hstart]
    cases failure with
    | none =>
      obtain ⟨r', progress', hp', hto'⟩ := ih u progress hp hbefore'
      exact ⟨r', progress', hp', hto.trans (BootsTo.head hresume hto')⟩
    | some diagnostic =>
      have hfatal : j.fatal = false := by
        rw [← Bool.not_eq_true]
        intro hf
        exact hbefore j (by simp) ⟨hf, hwhy (by simp)⟩
      obtain ⟨r', progress', hp', hto'⟩ := ih (u.setStatus j.key .degraded)
        { progress with
          diagnostics := progress.diagnostics ++ [diagnostic]
          degraded := true } hp hbefore'
      refine ⟨r', progress', hp', hto.trans (BootsTo.head hresume ?_)⟩
      simpa only [resumeBoot, hfatal, if_false, Bool.false_eq_true] using hto'

/-- `boot` reaches the registration hook of an instance it gets to. -/
lemma boot_reaches {instances : List RuntimeInstance} {d : RuntimeInstance}
    (hinst : options.instances = instances) (h : ReachesRegister instances d) :
    ∃ r work stages rest progress, BootsTo options (newRunner options) r ∧
      r.boot = .hook d .register work stages rest progress := by
  obtain ⟨before, rest, hsplit, hbefore, hvalid, hregister⟩ := h
  obtain ⟨work, hwork⟩ := Option.ne_none_iff_exists'.mp hregister
  obtain ⟨u, progress, hp, hto⟩ := boot_past options (newRunner options) (d :: rest)
    ⟨[], false, false⟩ rfl hbefore
  have hcall : step options (newRunner options) .boot =
      some (bootLoop (newRunner options) ⟨[], false, false⟩ (before ++ d :: rest)) := by
    rw [← hsplit, ← hinst]
    rfl
  have hto := BootsTo.head hcall hto
  have hloop : bootLoop u progress (d :: rest) =
      runBootStages u d rest progress [.validate, .register, .ready] := by
    simp [bootLoop, hp, PLUGIN_BOOT_STAGES]
  rw [hloop] at hto
  cases hv : d.hooks .validate with
  | none =>
    refine ⟨_, work, [.ready], rest, progress, hto, ?_⟩
    simp [runBootStages, hv, hwork]
  | some validation =>
    obtain rfl := (passes_of_hook hv).mp hvalid
    have hsettle : step options
        (runBootStages u d rest progress [.validate, .register, .ready]) .boot =
        some (runBootStages (passStage (runBootStages u d rest progress
          [.validate, .register, .ready]) d .validate .ok) d rest progress [.register, .ready]) := by
      simp [runBootStages, hv, step, settleStage, withTimeout]
    refine ⟨_, work, [.ready], rest, progress, hto.trans (BootsTo.head hsettle BootsTo.refl), ?_⟩
    simp [runBootStages, hwork]

end Reach

section Providers

/-- Distinct keys, and every provider of a capability before the instances that require it. -/
structure ProvidersFirst (instances : List RuntimeInstance) : Prop where
  nodup : (instances.map (·.key)).Nodup
  first : ∀ before d rest, instances = before ++ d :: rest → ∀ e ∈ instances, e.key ≠ d.key →
    (∃ c ∈ d.requires, c ∈ e.provides) → e ∈ before

/-- Whatever the hooks do, every registration finds its providers ready exactly when no provider
of an instance that gets to its registration fails. -/
lemma providersReady_iff (h : ProvidersFirst options.instances) :
    (∀ n r, run (step options) (newRunner options) (List.replicate n .boot) = some r →
        ProvidersReady options.instances r) ↔ ProvidersBoot options.instances := by
  constructor
  · intro hready d hd e he hne hcap
    obtain ⟨r, work, stages, rest, progress, ⟨n, hn⟩, hphase⟩ := boot_reaches rfl hd
    have hstatus := hready n r hn d work stages rest progress hphase e he hne hcap
    have hat := boot_at h.nodup hn
    rw [BootAt, hphase] at hat
    obtain ⟨before, _, hsplit, _, hbehind, _⟩ := hat
    have hmem := h.first before d rest hsplit e he hne hcap
    rw [(hbehind e hmem).2] at hstatus
    by_contra hfail
    simp [hfail] at hstatus
  · intro hboot n r hn d work stages rest progress hphase e he hne hcap
    have hat := boot_at h.nodup hn
    rw [BootAt, hphase] at hat
    obtain ⟨before, done, hsplit, _, hbehind, hdone, hpass, hhook⟩ := hat
    have hmem := h.first before d rest hsplit e he hne hcap
    have hvalid : d.passes .validate = true := by
      apply hpass
      cases done with
      | nil => simp [PLUGIN_BOOT_STAGES] at hdone
      | cons first done =>
        have hfirst := (List.cons.inj hdone).1
        simp [← hfirst]
    have hreach : ReachesRegister options.instances d :=
      ⟨before, rest, hsplit, fun j hj => (hbehind j hj).1, hvalid, by simp [hhook]⟩
    rw [(hbehind e hmem).2, hboot d hreach e he hne hcap]
    rfl

end Providers

section Graph

variable {N Obj : Type} [DecidableEq Obj] [JsonText.JsonNumber N] (sha256Hex : JsString → JsString)

/-- The instances of an accepted resolution come with their providers first. -/
lemma providersFirst_of_graph {input : Resolver.ResolveOptions N Obj}
    {graph : Resolver.ResolutionGraph N}
    (h : Resolver.resolvePlugins sha256Hex input = .ok graph) {instances : List RuntimeInstance}
    (horder : InOrderOf graph instances) : ProvidersFirst instances := by
  obtain ⟨ha, rfl⟩ := (Resolver.resolvePlugins_eq_ok sha256Hex).mp h
  obtain ⟨hmap, hperm⟩ := Resolver.graph_instances sha256Hex ha
  have hkeys : instances.map (·.key) = (input.graph sha256Hex).order := by
    have := congrArg (List.map Prod.fst) horder
    simpa [Function.comp_def, hmap] using this
  have hnodup : (instances.map (·.key)).Nodup := by
    rw [hkeys]
    exact (Resolver.order_perm sha256Hex ha).nodup_iff.mpr (Resolver.nodup_enabled sha256Hex ha)
  have hsame : ∀ i ∈ instances, ∃ i' ∈ (input.graph sha256Hex).instances,
      i'.key = i.key ∧ i'.provides = i.provides ∧ i'.requires = i.requires := by
    intro i hi
    have hmem : (i.key, i.provides, i.requires) ∈
        (input.graph sha256Hex).instances.map (fun i => (i.key, i.provides, i.requires)) :=
      horder ▸ List.mem_map_of_mem (f := fun i : RuntimeInstance => (i.key, i.provides, i.requires)) hi
    obtain ⟨i', hi', heq⟩ := List.mem_map.mp hmem
    simp only [Prod.mk.injEq] at heq
    exact ⟨i', hi', heq⟩
  have hhosts := (Resolver.linked_unique ha.linked).2.1
  refine ⟨hnodup, ?_⟩
  rintro before d rest hsplit e he hne ⟨c, hc, hp⟩
  obtain ⟨d', hd', hdk, _, hdr⟩ := hsame d (by simp [hsplit])
  obtain ⟨e', he', hek, hep, _⟩ := hsame e he
  have hhost : c ∉ input.hosts := by
    intro hhost
    obtain ⟨e'', he'', heq⟩ := List.mem_map.mp (hperm.mem_iff.mp he')
    refine Resolver.host_not_provided hhosts c hhost e'' he'' ?_
    have hprov : e''.provides = e'.provides := by rw [← heq]; rfl
    rw [hprov, hep]
    exact hp
  have hbefore := Resolver.graph_order_before sha256Hex ha hd' he' (by rw [hek, hdk]; exact hne)
    (List.mem_append_left _ (hdr ▸ hc)) hhost (hep ▸ hp)
  rw [hek, hdk, ← hkeys] at hbefore
  have hlt := FrontierOrder.idxOf_lt_of_sublist hnodup hbefore
  have hd : d.key ∉ before.map (·.key) := by
    intro hmem
    obtain ⟨j, hj, hkey⟩ := List.mem_map.mp hmem
    rw [hsplit, List.map_append, List.nodup_append] at hnodup
    exact hnodup.2.2 _ (List.mem_map_of_mem hj) _ (by simp) hkey
  have hmem : e.key ∈ before.map (·.key) := by
    by_contra hnot
    rw [hsplit, List.map_append, List.map_cons, List.idxOf_append_of_notMem hd,
      List.idxOf_append_of_notMem hnot, List.idxOf_cons_self] at hlt
    omega
  obtain ⟨j, hj, hkey⟩ := List.mem_map.mp hmem
  rwa [← List.inj_on_of_nodup_map hnodup (by simp [hsplit, hj]) he hkey]

/-- In the order of an accepted resolution, every registration finds the other providers of what
it requires ready exactly when no provider of an instance that gets to its registration fails. -/
theorem boot_providers_ready {input : Resolver.ResolveOptions N Obj}
    {graph : Resolver.ResolutionGraph N}
    (h : Resolver.resolvePlugins sha256Hex input = .ok graph)
    (horder : InOrderOf graph options.instances) :
    (∀ n r, run (step options) (newRunner options) (List.replicate n .boot) = some r →
        ProvidersReady options.instances r) ↔ ProvidersBoot options.instances :=
  providersReady_iff (providersFirst_of_graph sha256Hex h horder)

section Example

/-- Plugin `p` provides `c`, plugin `d` requires it. -/
def dependantInput : Resolver.ResolveOptions ℤ Bool :=
  { inventory := [Resolver.enabledEntry (js "p"), Resolver.enabledEntry (js "d")]
    manifests := [false, true]
    read := fun o => Resolver.published (
      if o then Resolver.plainManifest (js "d") [] [js "c"]
      else Resolver.plainManifest (js "p") [js "c"] [])
    hostCapabilities := none
    officialScope := none }

lemma dependantInput_accepts : Resolver.Accepts dependantInput id :=
  (Resolver.hasErrors_diagnostics_eq_false id dependantInput).mp (by decide +kernel)

/-- The provider is optional, and its validation ends as given. -/
def providerOutcome (validation : HookResult) : LifecycleRunnerOptions :=
  { instances :=
      [{ waiting (js "p") with
          required := false
          provides := [js "c"]
          hooks := fun stage => if stage = .validate then some validation else none
          optionalFailurePolicy := true },
        { waiting (js "d") with requires := [js "c"] }]
    stageTimeoutMs := none
    shutdownTimeoutMs := none }

lemma dependantInput_order (validation : HookResult) :
    InOrderOf (dependantInput.graph id) (providerOutcome validation).instances := by
  have hgraph : (dependantInput.graph id).instances.map (fun i => (i.key, i.provides, i.requires)) =
      [(js "p", [js "c"], []), (js "d", [], [js "c"])] := by decide +kernel
  rw [InOrderOf, hgraph]
  rfl

end Example

theorem boot_providers_ready_returns :
    (∀ n r, run (step (providerOutcome .returns)) (newRunner (providerOutcome .returns))
        (List.replicate n .boot) = some r → ProvidersReady (providerOutcome .returns).instances r) ↔
      ProvidersBoot (providerOutcome .returns).instances :=
  boot_providers_ready id (Resolver.resolvePlugins_of_accepts id dependantInput_accepts)
    (dependantInput_order .returns)

/-- The optional provider hangs in its validation, and the dependant registers all the same. -/
theorem boot_degraded_provider : ∃ graph,
    Resolver.resolvePlugins id dependantInput = .ok graph ∧
      InOrderOf graph (providerOutcome .overruns).instances ∧
      ∃ n r, run (step (providerOutcome .overruns)) (newRunner (providerOutcome .overruns))
          (List.replicate n .boot) = some r ∧
        ¬ ProvidersReady (providerOutcome .overruns).instances r := by
  refine ⟨_, Resolver.resolvePlugins_of_accepts id dependantInput_accepts,
    dependantInput_order .overruns, 3, _, rfl, ?_⟩
  intro hready
  have hstatus := hready _ _ _ _ _ rfl { waiting (js "p") with
    required := false
    provides := [js "c"]
    hooks := fun stage => if stage = .validate then some .overruns else none
    optionalFailurePolicy := true } (by simp [providerOutcome]) (by decide) (by decide)
  revert hstatus
  decide

end Graph

end Appspine.Lifecycle

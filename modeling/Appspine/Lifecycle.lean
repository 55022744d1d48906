import Appspine.Resolver
import Appspine.Transitions

/-!
# The lifecycle runner

`boot` and `shutdown` of one runner, cut into the stretches between two awaits: a task
runs up to its next hook, and the other task may run before the hook has settled. What a
hook does within its budget is data of the instance, since no hook runs twice.
-/
namespace Appspine.Lifecycle
open JsText InsertionMap PluginManifest Transitions

inductive PluginLifecycleStage where
  | validate
  | register
  | ready
  | shutdown
  deriving DecidableEq

def PluginLifecycleStage.text : PluginLifecycleStage → JsString
  | .validate => js "validate"
  | .register => js "register"
  | .ready => js "ready"
  | .shutdown => js "shutdown"

def PLUGIN_BOOT_STAGES : List PluginLifecycleStage := [.validate, .register, .ready]

inductive PluginInstanceStatus where
  | pending
  | validated
  | registered
  | ready
  | degraded
  | failed
  | notReached
  | disabled
  | stopped
  deriving DecidableEq

inductive StageOutcome where
  | ok
  | failed
  | timeout
  | skipped
  deriving DecidableEq

inductive HostBootOutcome where
  | ready
  | degradedReady
  | bootAborted
  deriving DecidableEq

inductive HostShutdownOutcome where
  | completed
  | completedWithReportedTimeout
  | completedWithReportedFailure
  deriving DecidableEq

/-- What becomes of a hook: it returns or throws within its budget, or it overruns it. -/
inductive HookResult where
  | returns
  | throws (message : JsString)
  | overruns
  deriving DecidableEq

structure RuntimeInstance where
  key : JsString
  pluginId : JsString
  instanceId : JsString
  required : Bool
  provides : List JsString
  requires : List JsString
  hooks : PluginLifecycleStage → Option HookResult
  optionalFailurePolicy : Bool
  shutdownTimeoutMs : Option ℕ

structure StageError where
  timedOut : Bool
  message : JsString
  deriving DecidableEq

structure CatalogEntry where
  key : JsString
  pluginId : JsString
  instanceId : JsString
  status : PluginInstanceStatus
  required : Bool
  provides : List JsString
  requires : List JsString
  error : Option (PluginLifecycleStage × JsString)

structure LifecycleEvent where
  key : JsString
  pluginId : JsString
  instanceId : JsString
  stage : PluginLifecycleStage
  outcome : StageOutcome
  deriving DecidableEq

structure LifecycleRunnerOptions where
  instances : List RuntimeInstance
  stageTimeoutMs : Option ℕ
  shutdownTimeoutMs : Option ℕ

def DEFAULT_STAGE_TIMEOUT_MS : ℕ := 30000
def DEFAULT_SHUTDOWN_TIMEOUT_MS : ℕ := 10000

/-- The local variables of `boot`. -/
structure BootProgress where
  diagnostics : List PluginDiagnostic
  aborted : Bool
  degraded : Bool

/-- The local variables of `shutdown`. -/
structure ShutdownProgress where
  events : List LifecycleEvent
  timedOut : Bool
  failed : Bool

/-- Where `boot` waits: for a hook, or for the result of the stages of one instance. -/
inductive BootPhase where
  | idle
  | hook (instance_ : RuntimeInstance) (stage : PluginLifecycleStage) (work : HookResult)
      (stages : List PluginLifecycleStage) (rest : List RuntimeInstance) (progress : BootProgress)
  | settled (instance_ : RuntimeInstance) (failure : Option PluginDiagnostic)
      (rest : List RuntimeInstance) (progress : BootProgress)
  | returned (outcome : HostBootOutcome) (diagnostics : List PluginDiagnostic)

inductive ShutdownPhase where
  | idle
  | hook (instance_ : RuntimeInstance) (work : HookResult) (rest : List RuntimeInstance)
      (progress : ShutdownProgress)
  | returned (outcome : HostShutdownOutcome) (events : List LifecycleEvent)

structure PluginLifecycleRunner where
  entries : Entries JsString CatalogEntry
  recorded : List LifecycleEvent
  started : List RuntimeInstance
  boot : BootPhase
  shutdown : ShutdownPhase

inductive Task where
  | boot
  | shutdown
  deriving DecidableEq

section Runner

def pendingEntry (i : RuntimeInstance) : CatalogEntry :=
  { key := i.key, pluginId := i.pluginId, instanceId := i.instanceId, status := .pending,
    required := i.required, provides := i.provides, requires := i.requires, error := none }

/-- The constructor. -/
def newRunner (options : LifecycleRunnerOptions) : PluginLifecycleRunner :=
  { entries := options.instances.foldl (fun m i => InsertionMap.set m i.key (pendingEntry i)) []
    recorded := []
    started := []
    boot := .idle
    shutdown := .idle }

def withTimeout (work : HookResult) (timeoutMs : ℕ) (stage : PluginLifecycleStage)
    (key : JsString) : Option StageError :=
  match work with
  | .returns => none
  | .throws message => some ⟨false, message⟩
  | .overruns => some ⟨true, Resolver.quoted key ++ js " exceeded its " ++ js (toString timeoutMs) ++
      js "ms budget during " ++ stage.text⟩

def eventOf (i : RuntimeInstance) (stage : PluginLifecycleStage) (outcome : StageOutcome) :
    LifecycleEvent :=
  { key := i.key, pluginId := i.pluginId, instanceId := i.instanceId, stage := stage,
    outcome := outcome }

def PluginLifecycleRunner.record (r : PluginLifecycleRunner) (event : LifecycleEvent) :
    PluginLifecycleRunner :=
  { r with recorded := r.recorded ++ [event] }

def PluginLifecycleRunner.setStatus (r : PluginLifecycleRunner) (key : JsString)
    (status : PluginInstanceStatus) : PluginLifecycleRunner :=
  { r with entries := modify r.entries key (fun e => { e with status := status }) }

def PluginLifecycleRunner.setError (r : PluginLifecycleRunner) (key : JsString)
    (stage : PluginLifecycleStage) (message : JsString) : PluginLifecycleRunner :=
  { r with entries := modify r.entries key (fun e => { e with error := some (stage, message) }) }

def advance (r : PluginLifecycleRunner) (key : JsString) : PluginLifecycleStage →
    PluginLifecycleRunner
  | .validate => r.setStatus key .validated
  | .register => r.setStatus key .registered
  | .ready => r.setStatus key .ready
  | .shutdown => r

/-- A stage that succeeded or was skipped; a registered instance owns resources from then on. -/
def passStage (r : PluginLifecycleRunner) (i : RuntimeInstance) (stage : PluginLifecycleStage)
    (outcome : StageOutcome) : PluginLifecycleRunner :=
  let r := advance (r.record (eventOf i stage outcome)) i.key stage
  if stage = .register then { r with started := r.started ++ [i] } else r

def failStage (r : PluginLifecycleRunner) (i : RuntimeInstance) (stage : PluginLifecycleStage)
    (error : StageError) : PluginLifecycleRunner :=
  (r.record (eventOf i stage (if error.timedOut then .timeout else .failed))).setError i.key stage
    error.message

def stageDiagnostic (i : RuntimeInstance) (stage : PluginLifecycleStage) (error : StageError) :
    PluginDiagnostic :=
  Resolver.diagnostic
    (if error.timedOut then js "lifecycle-stage-timeout" else js "lifecycle-stage-failed")
    (Resolver.quoted i.key ++ js " failed during " ++ stage.text ++ js ": " ++ error.message)
    (some i.pluginId) (some i.instanceId) (some stage.text)

/-- The stages of one instance, up to the first hook. -/
def runBootStages (r : PluginLifecycleRunner) (i : RuntimeInstance) (rest : List RuntimeInstance)
    (progress : BootProgress) : List PluginLifecycleStage → PluginLifecycleRunner
  | [] => { r with boot := .settled i none rest progress }
  | stage :: stages =>
    match i.hooks stage with
    | none => runBootStages (passStage r i stage .skipped) i rest progress stages
    | some work => { r with boot := .hook i stage work stages rest progress }

def bootOutcome (progress : BootProgress) : HostBootOutcome :=
  if progress.aborted then .bootAborted else if progress.degraded then .degradedReady else .ready

/-- The loop over the instances, from the next one on. -/
def bootLoop (r : PluginLifecycleRunner) (progress : BootProgress) : List RuntimeInstance →
    PluginLifecycleRunner
  | [] => { r with boot := .returned (bootOutcome progress) (sortDiagnostics progress.diagnostics) }
  | i :: rest =>
    if progress.aborted then bootLoop (r.setStatus i.key .notReached) progress rest
    else runBootStages r i rest progress PLUGIN_BOOT_STAGES

/-- A hook of `boot` has settled. -/
def settleStage (options : LifecycleRunnerOptions) (r : PluginLifecycleRunner) (i : RuntimeInstance)
    (stage : PluginLifecycleStage) (work : HookResult) (stages : List PluginLifecycleStage)
    (rest : List RuntimeInstance) (progress : BootProgress) : PluginLifecycleRunner :=
  match withTimeout work (options.stageTimeoutMs.getD DEFAULT_STAGE_TIMEOUT_MS) stage i.key with
  | none => runBootStages (passStage r i stage .ok) i rest progress stages
  | some error =>
    { failStage r i stage error with
      boot := .settled i (some (stageDiagnostic i stage error)) rest progress }

/-- A failure of this instance ends the boot. -/
def RuntimeInstance.fatal (i : RuntimeInstance) : Bool := i.required || !i.optionalFailurePolicy

/-- `boot` has the result of one instance. -/
def resumeBoot (r : PluginLifecycleRunner) (i : RuntimeInstance) (failure : Option PluginDiagnostic)
    (rest : List RuntimeInstance) (progress : BootProgress) : PluginLifecycleRunner :=
  match failure with
  | none => bootLoop r progress rest
  | some d =>
    let diagnostics := progress.diagnostics ++ [d]
    if i.fatal then
      bootLoop (r.setStatus i.key .failed)
        { progress with
          diagnostics := diagnostics
          aborted := true } rest
    else
      bootLoop (r.setStatus i.key .degraded)
        { progress with
          diagnostics := diagnostics
          degraded := true } rest

def shutdownOutcome (progress : ShutdownProgress) : HostShutdownOutcome :=
  if progress.timedOut then .completedWithReportedTimeout
  else if progress.failed then .completedWithReportedFailure
  else .completed

def reportShutdown (progress : ShutdownProgress) (event : LifecycleEvent) : ShutdownProgress :=
  { progress with events := progress.events ++ [event] }

def shutdownLoop (r : PluginLifecycleRunner) (progress : ShutdownProgress) :
    List RuntimeInstance → PluginLifecycleRunner
  | [] => { r with shutdown := .returned (shutdownOutcome progress) progress.events }
  | i :: rest =>
    match i.hooks .shutdown with
    | none =>
      let event := eventOf i .shutdown .skipped
      shutdownLoop ((r.setStatus i.key .stopped).record event) (reportShutdown progress event) rest
    | some work => { r with shutdown := .hook i work rest progress }

/-- A shutdown hook has settled; one that hangs or throws is reported and stepped over. -/
def settleShutdown (options : LifecycleRunnerOptions) (r : PluginLifecycleRunner)
    (i : RuntimeInstance) (work : HookResult) (rest : List RuntimeInstance)
    (progress : ShutdownProgress) : PluginLifecycleRunner :=
  let timeoutMs := i.shutdownTimeoutMs.getD
    (options.shutdownTimeoutMs.getD DEFAULT_SHUTDOWN_TIMEOUT_MS)
  match withTimeout work timeoutMs .shutdown i.key with
  | none =>
    let event := eventOf i .shutdown .ok
    shutdownLoop ((r.setStatus i.key .stopped).record event) (reportShutdown progress event) rest
  | some error =>
    let event := eventOf i .shutdown (if error.timedOut then .timeout else .failed)
    let progress :=
      { progress with
        timedOut := progress.timedOut || error.timedOut
        failed := progress.failed || !error.timedOut }
    shutdownLoop ((r.setError i.key .shutdown error.message).record event)
      (reportShutdown progress event) rest

/-- One task goes on up to its next await. Each of the two is called once. -/
def step (options : LifecycleRunnerOptions) (r : PluginLifecycleRunner) :
    Task → Option PluginLifecycleRunner
  | .boot =>
    match r.boot with
    | .idle => some (bootLoop r ⟨[], false, false⟩ options.instances)
    | .hook i stage work stages rest progress =>
      some (settleStage options r i stage work stages rest progress)
    | .settled i failure rest progress => some (resumeBoot r i failure rest progress)
    | .returned _ _ => none
  | .shutdown =>
    match r.shutdown with
    | .idle => some (shutdownLoop r ⟨[], false, false⟩ r.started.reverse)
    | .hook i work rest progress => some (settleShutdown options r i work rest progress)
    | .returned _ _ => none

end Runner

end Appspine.Lifecycle

/-
  Controller/TaskProgram.lean --- the AgentTask reconciler
  (`internal/controller/agenttask_controller.go`).

  One definition per function of the source, in the order a pass calls them from
  the bottom up.  A pass is a `Reconcile` program: every API call is one
  operation, an error that the source returns ends the pass.  Requeue delays and
  events are left out: the environment may start a pass at any time.

  THE LOCAL COPY.  A function takes the task as the pass holds it and, where the
  pass goes on, hands the updated copy back, as the source does through the
  pointer.
-/
import Kaalm.Controller.Cluster

namespace Kaalm.Controller

open Kaalm.Foundation
open Kaalm.Gateway (Time Duration second)

def provisioningDeadline : Duration := 300 * second

def taskWorkload (key : NamespacedName) : Workload := ⟨.agentTask, key⟩

/-! ## Local edits -/

def setTaskPhase (task : AgentTask) (phase : TaskPhase) : AgentTask :=
  { task with status := { task.status with phase := phase } }

def setTaskReady (task : AgentTask) (ok : Bool) (reason msg : String) : AgentTask :=
  { task with status := { task.status with ready := some ⟨ok, reason, msg⟩ } }

def observeTask (task : AgentTask) : AgentTask :=
  { task with
    status :=
      { task.status with
        observedGeneration := task.generation
        phase := if task.status.phase = .unset then .pending else task.status.phase } }

def timedOut (task : AgentTask) (now : Time) : Bool :=
  match task.status.startTime with
  | some start => task.spec.timeout > 0 && now - start > task.spec.timeout
  | none => false

def isTerminalTaskPhase : TaskPhase → Bool
  | .succeeded | .failed | .timedOut | .terminating => true
  | .unset | .pending | .provisioning | .running | .completing => false

def podExitMessage (pod : Pod) : String :=
  match pod.containerStatuses.findSome? fun cs => cs.terminated.map fun code => (cs.name, code) with
  | some (name, code) => "container " ++ name ++ " exited " ++ toString code
  | none => "task Pod failed without a container exit code"

/-- A waiting reason that cannot heal. -/
def fatalWaiting (pod : Pod) : Option Waiting :=
  pod.containerStatuses.findSome? fun cs =>
    cs.waiting.filter fun w => w.reason = "InvalidImageName" ∨ w.reason = "ErrImageNeverPull"

/-! ## Reads -/

/-- The loop of `ownedPod` and `ownedTaskPod`: the first live Pod the workload
controls, otherwise the last terminating one. -/
def ownedPodIn (w : Workload) : List Pod → Option Pod → Option Pod
  | [], candidate => candidate
  | p :: ps, candidate =>
    if p.owner ≠ w then ownedPodIn w ps candidate
    else if p.deletionTimestamp.isNone then some p
    else ownedPodIn w ps (some p)

def ownedTaskPod (key : NamespacedName) : Reconcile (Option Pod) := do
  let pods ← listPods key.ns (taskPodLabels key.name)
  return ownedPodIn (taskWorkload key) pods none

/-- `readMailbox`, with the ghost authors of what is in it. -/
def readMailbox (key : NamespacedName) : Reconcile (CompletionPayload × List UID) := do
  match ← getChild .configMap (mailboxKey key) with
  | .ok box => return (parseCompletion box.val.data, box.val.writers)
  | .error .notFound => return (parseCompletion ∅, [])
  | .error e => Prog.fail e

/-! ## Writes -/

/-- `r.Status().Update(ctx, task)`. -/
def updateTaskStatus (task : AgentTask) (cause : Option Cause) : Reconcile AgentTask := do
  let rv ← writeTaskStatus task cause
  return { task with rv := rv }

/-- `r.Delete(ctx, pod)`, a missing Pod ignored. -/
def deletePodIgnoringNotFound (pod : Pod) : Reconcile Unit := do
  match ← deletePod pod.uid with
  | .ok _ => return ()
  | .error .notFound => return ()
  | .error e => Prog.fail e

/-- `create` in `ensureTaskChildren`: an existing object is left alone. -/
def createIfMissing (κ : ChildKind) (key : NamespacedName) (val : Child κ) (owner : Workload) :
    Reconcile Unit := do
  match ← createChild κ key val owner with
  | .ok _ => return ()
  | .error .alreadyExists => return ()
  | .error e => Prog.fail e

def noteSettled (task : AgentTask) (phase : TaskPhase) (now : Time) (reason msg : String) :
    AgentTask :=
  { task with
    status := { task.status with
      phase := phase
      completionTime := some (metaTime now)
      completed := some ⟨decide (phase = .succeeded), reason, msg⟩
      ready := some ⟨false, reason, msg⟩ } }

/-- `settle`: a terminal phase with its condition and completion time. -/
def settle (task : AgentTask) (phase : TaskPhase) (reason msg : String) (cause : Option Cause) :
    Reconcile Unit := do
  let now ← readClock
  let _ ← updateTaskStatus (noteSettled task phase now reason msg) cause

/-- The local copy after the first two steps of `retry`. -/
def closeAttempt (task : AgentTask) (reason msg : String) : AgentTask :=
  let task := { task with
    status := { task.status with
      retries := task.status.retries + 1
      currentPodUID := none
      startTime := none
      artifactValues := ∅
      agentReportedStatus := ""
      agentReportedMessage := "" } }
  setTaskReady (setTaskPhase task .failed) false reason msg

def emptyMailbox (key : NamespacedName) : Reconcile Unit := do
  match ← getChild .configMap (mailboxKey key) with
  | .ok box =>
    if box.val.data.entries.isEmpty then return ()
    else updateChild .configMap (mailboxKey key) { box with val := ⟨∅, []⟩ }
  | .error .notFound => return ()
  | .error e => Prog.fail e

/-- Step 4 of `retry`: only agentReported tasks have a mailbox. -/
def resetMailbox (task : AgentTask) : Reconcile Unit :=
  if isAgentReported task.spec then emptyMailbox task.key else return ()

/-- Step 3 of `retry`: delete the Pod that is still there, unless it is already
terminating. -/
def deleteOldPod : Option Pod → Reconcile Unit
  | some p => if p.deletionTimestamp.isNone then deletePodIgnoringNotFound p else return ()
  | none => return ()

/-- `retry`: count the attempt and close the gate, delete the old Pod, reset the
mailbox, go back to Provisioning. -/
def retry (task : AgentTask) (reason msg : String) (cause : Option Cause) : Reconcile Unit := do
  let task ← updateTaskStatus (closeAttempt task reason msg) cause
  let pod ← ownedTaskPod task.key
  deleteOldPod pod
  resetMailbox task
  let _ ← updateTaskStatus (setTaskPhase task .provisioning) none

def failOrRetry (task : AgentTask) (reason msg : String) (cause : Option Cause) : Reconcile Unit :=
  if (task.status.retries : Int) < task.spec.backoffLimit then retry task reason msg cause
  else settle task .failed reason msg cause

def settleTimeout (task : AgentTask) : Reconcile Unit :=
  match task.spec.onTimeout with
  | .succeed =>
    settle task .succeeded "TimeoutSucceeded" "timeout reached with onTimeout: Succeed" none
  | .fail =>
    settle task .timedOut "TimeoutExceeded"
      ("task exceeded its " ++ durationString task.spec.timeout ++ " completion timeout") none

/-! ## Completing -/

def recordReport (task : AgentTask) (payload : CompletionPayload) : AgentTask :=
  { task with
    status := { task.status with
      artifactValues := payload.artifacts
      agentReportedStatus := payload.status
      agentReportedMessage := payload.message } }

/-- `driveCompleting` on a non-empty mailbox. -/
def completeByReport (task : AgentTask) (payload : CompletionPayload) (writers : List UID) :
    Reconcile Unit :=
  let cause := some (Cause.report writers)
  if validateArtifactNames payload task.spec.artifacts ≠ "" then
    failOrRetry task "TaskFailed"
      ("artifact validation failed: " ++ validateArtifactNames payload task.spec.artifacts) cause
  else if payload.status = "success" then
    settle (recordReport task payload) .succeeded "TaskSucceeded" payload.message cause
  else
    failOrRetry (recordReport task payload) "TaskFailed"
      ("agent reported failure: " ++ payload.message) cause

/-- `driveCompleting`: mailbox first, then container exit, then timeout. -/
def driveCompleting (task : AgentTask) (pod : Option Pod) : Reconcile Unit := do
  if isAgentReported task.spec then
    let (payload, writers) ← readMailbox task.key
    if payload.status ≠ "" then completeByReport task payload writers
    else
      let now ← readClock
      if timedOut task now then settleTimeout task
      else
        failOrRetry task "PodDisrupted" "task reached Completing with no completion payload" none
  else
    match pod.filter (·.phase = .succeeded) with
    | some p =>
      settle task .succeeded "TaskSucceeded" "container exited 0" (some (.exitedZero p.uid))
    | none =>
      match pod.filter (·.phase = .failed) with
      | some p => failOrRetry task "TaskFailed" (podExitMessage p) none
      | none =>
        let now ← readClock
        if timedOut task now then settleTimeout task
        else failOrRetry task "PodDisrupted" "task Pod was lost before completion settled" none

/-- Commit Completing and go on in the same pass. -/
def enterCompleting (task : AgentTask) (pod : Option Pod) (cause : Option Cause) :
    Reconcile Unit := do
  let task ← updateTaskStatus (setTaskPhase task .completing) cause
  driveCompleting task pod

/-- Ghost: a Pod that exited 0 is what Completing rests on. -/
def exitCause (pod : Pod) : Option Cause :=
  if pod.phase = .succeeded then some (.exitedZero pod.uid) else none

/-! ## Running -/

/-- The rest of `driveRunning` once no completion signal was found. -/
def watchRunning (task : AgentTask) (pod : Option Pod) : Reconcile Unit := do
  let now ← readClock
  if timedOut task now then enterCompleting task pod none
  else
    match pod with
    | none => failOrRetry task "PodDisrupted" "task Pod was lost mid-run" none
    | some p =>
      if isAgentReported task.spec ∧ p.phase = .failed then
        failOrRetry task "PodDisrupted" "task Pod was lost mid-run" none
      else return ()

/-- `driveRunning`: completion, timeout, Pod loss, in that order. -/
def driveRunning (task : AgentTask) (pod : Option Pod) : Reconcile Unit := do
  if isAgentReported task.spec then
    let (payload, _) ← readMailbox task.key
    if payload.status ≠ "" then enterCompleting task pod none else watchRunning task pod
  else
    match pod with
    | some p =>
      if p.phase.terminal then enterCompleting task pod (exitCause p) else watchRunning task pod
    | none => watchRunning task pod

/-! ## Provisioning -/

def ensureTaskCertificate (key : NamespacedName) : Reconcile Bool := do
  match ← getChild .certificate ⟨key.ns, taskCertificateName key.name⟩ with
  | .ok cert => return cert.val.ready
  | .error .notFound =>
    match ← createChild .certificate ⟨key.ns, taskCertificateName key.name⟩
        (desiredTaskCertificate key) (taskWorkload key) with
    | .ok _ => return false
    | .error e => Prog.fail e
  | .error e => Prog.fail e

/-- The completion mailbox and its RBAC pair, for agentReported tasks. -/
def ensureMailbox (key : NamespacedName) : Reconcile Unit := do
  createIfMissing .configMap (mailboxKey key) desiredCompletionConfigMap (taskWorkload key)
  createIfMissing .role ⟨key.ns, taskCompletionRoleName key.name⟩ () (taskWorkload key)
  createIfMissing .roleBinding ⟨key.ns, taskCompletionRoleName key.name⟩ () (taskWorkload key)

def ensureWorkspace (key : NamespacedName) (eff : EffectiveTaskSpec) : Reconcile Unit :=
  if eff.persistenceOn then
    createIfMissing .persistentVolumeClaim ⟨key.ns, taskPVCName key.name⟩ () (taskWorkload key)
  else return ()

def ensureTaskChildren (cfg : Config) (task : AgentTask) (cls : AgentClass)
    (eff : EffectiveTaskSpec) : Reconcile Unit := do
  let key := task.key
  createIfMissing .serviceAccount ⟨key.ns, taskServiceAccountName key.name⟩ () (taskWorkload key)
  ensureWorkspace key eff
  createIfMissing .networkPolicy key (desiredTaskNetworkPolicy key.name cls cfg.operatorNamespace)
    (taskWorkload key)
  if isAgentReported task.spec then ensureMailbox key else return ()

def notePodCreated (task : AgentTask) (pod : Pod) : AgentTask :=
  let task := setTaskReady (setTaskPhase task .provisioning) false "PodProvisioning"
    "task Pod created, waiting for readiness"
  { task with
    status := { task.status with
      podName := pod.name
      currentPodUID :=
        if isAgentReported task.spec then some pod.uid else task.status.currentPodUID } }

def noteAwaiting (task : AgentTask) : AgentTask :=
  setTaskReady (if task.status.phase = .pending then setTaskPhase task .provisioning else task)
    false "CertificateNotReady" "waiting for cert-manager to issue the task certificate"

/-- `driveProvisioning` without a Pod: children, the certificate gate, the Pod. -/
def provisionPod (cfg : Config) (task : AgentTask) (cls : AgentClass) (eff : EffectiveTaskSpec) :
    Reconcile Unit := do
  let certReady ← ensureTaskCertificate task.key
  if certReady then
    ensureTaskChildren cfg task cls eff
    let pod ← createPod (desiredTaskPod task.key eff task.status.retries)
    let _ ← updateTaskStatus (notePodCreated task pod) none
  else
    let _ ← updateTaskStatus (noteAwaiting task) none

/-- The local copy with the observed Pod as the current one. -/
def noteStamped (task : AgentTask) (pod : Pod) : AgentTask :=
  { task with status := { task.status with currentPodUID := some pod.uid, podName := pod.name } }

/-- Stamp the observed Pod's identity, which opens the completion gate. -/
def stampPod (task : AgentTask) (pod : Pod) : Reconcile AgentTask :=
  if isAgentReported task.spec ∧ task.status.currentPodUID ≠ some pod.uid then
    updateTaskStatus (noteStamped task pod) none
  else return task

def PodPhase.text : PodPhase → String
  | .pending => "Pending"
  | .running => "Running"
  | .succeeded => "Succeeded"
  | .failed => "Failed"

def endedBeforeReady (task : AgentTask) (pod : Pod) : Reconcile Unit :=
  if !isAgentReported task.spec ∧ pod.phase = .succeeded then
    enterCompleting task (some pod) (exitCause pod)
  else
    failOrRetry task "PodStartFailed"
      ("Pod " ++ pod.name ++ " reached " ++ pod.phase.text ++ " before becoming Ready") none

/-- A Pod that is neither Ready nor ended: fatal waiting reasons and the
deadline. -/
def awaitReady (task : AgentTask) (pod : Pod) : Reconcile Unit := do
  match fatalWaiting pod with
  | some w => failOrRetry task w.reason w.message none
  | none =>
    let now ← readClock
    if now - pod.creationTimestamp > provisioningDeadline then
      failOrRetry task "ProvisioningDeadlineExceeded"
        ("Pod " ++ pod.name ++ " not Ready within " ++ durationString provisioningDeadline) none
    else
      let _ ← updateTaskStatus task none

def noteRunning (task : AgentTask) (now : Time) : AgentTask :=
  let task := setTaskPhase task .running
  setTaskReady { task with status := { task.status with startTime := some (metaTime now) } }
    true "PodRunning" "task Pod is running"

/-- `driveProvisioning` with a Pod. -/
def watchProvisioning (task : AgentTask) (pod : Pod) : Reconcile Unit := do
  let task ← stampPod task pod
  if pod.ready then
    let now ← readClock
    let _ ← updateTaskStatus (noteRunning task now) none
  else if pod.phase.terminal then endedBeforeReady task pod
  else awaitReady task pod

def driveProvisioning (cfg : Config) (task : AgentTask) (cls : AgentClass)
    (eff : EffectiveTaskSpec) (pod : Option Pod) : Reconcile Unit :=
  match pod with
  | none => provisionPod cfg task cls eff
  | some p => watchProvisioning task p

/-! ## The pass -/

def drive (cfg : Config) (task : AgentTask) (cls : AgentClass) (eff : EffectiveTaskSpec)
    (pod : Option Pod) : Reconcile Unit :=
  match task.status.phase with
  | .pending | .provisioning => driveProvisioning cfg task cls eff pod
  | .running => driveRunning task pod
  | .completing => driveCompleting task pod
  | .unset | .succeeded | .failed | .timedOut | .terminating => return ()

def missingPullSecret (ns : String) : List String → Reconcile (Option String)
  | [] => return none
  | ref :: refs => do
    match ← getChild .secret ⟨ns, ref⟩ with
    | .ok _ => missingPullSecret ns refs
    | .error .notFound => return some ref
    | .error e => Prog.fail e

/-- The pre-Pod validation, then `drive`. -/
def validateAndDrive (cfg : Config) (task : AgentTask) (cls : AgentClass)
    (eff : EffectiveTaskSpec) (pod : Option Pod) : Reconcile Unit := do
  let violations ← getViolations (taskWorkload task.key)
  match violations with
  | v :: _ => settle task .failed v.reason v.message none
  | [] =>
    match ← missingPullSecret task.key.ns eff.imagePullSecrets with
    | some ref =>
      let _ ← updateTaskStatus (setTaskReady task false "ImagePullSecretMissing"
        ("imagePullSecret " ++ quoted ref ++ " missing in namespace " ++
          quoted task.key.ns)) none
    | none =>
      if eff.image = "" then
        let _ ← updateTaskStatus (setTaskReady task false "InvalidReference"
          "no image: AgentTask.spec.image is empty and the AgentClass sets no defaultImage") none
      else drive cfg task cls eff pod

def handleTTL (task : AgentTask) : Reconcile Unit := do
  match task.spec.ttlSecondsAfterFinished, task.status.completionTime with
  | some ttl, some finished =>
    let now ← readClock
    if finished + ttl * second - now > 0 then return ()
    else
      let task ← updateTaskStatus (setTaskPhase task .terminating) none
      match ← removeTask task.key with
      | .ok _ => return ()
      | .error .notFound => return ()
      | .error e => Prog.fail e
  | _, _ => return ()

/-- `reconcileDelete`: the finalizer. -/
def reconcileTaskDelete (task : AgentTask) : Reconcile Unit := do
  if task.finalizer then
    match ← ownedTaskPod task.key with
    | some pod =>
      if pod.deletionTimestamp.isNone then deletePodIgnoringNotFound pod else return ()
    | none =>
      let _ ← writeTask { task with finalizer := false }
  else return ()

/-- The pass over a task that is neither terminal nor a broken-off retry. -/
def reconcileActive (cfg : Config) (task : AgentTask) : Reconcile Unit := do
  if task.key.ns = cfg.operatorNamespace then
    let _ ← updateTaskStatus (setTaskReady task false "SystemNamespaceForbidden"
      ("AgentTasks may not run in the operator namespace " ++ quoted cfg.operatorNamespace)) none
  else
    match ← getClass task.spec.agentClassRef with
    | .error .notFound =>
      let _ ← updateTaskStatus (setTaskReady task false "InvalidReference"
        ("AgentClass " ++ quoted task.spec.agentClassRef ++ " does not exist")) none
    | .error e => Prog.fail e
    | .ok cls =>
      let eff := deriveEffectiveTaskSpec task.spec cls
      let pod ← ownedTaskPod task.key
      if pod.isNone ∧ (task.status.phase = .pending ∨ task.status.phase = .provisioning) then
        validateAndDrive cfg task cls eff pod
      else drive cfg task cls eff pod

/-- The pass over a task that holds the finalizer and is not being deleted. -/
def reconcileHeld (cfg : Config) (task : AgentTask) : Reconcile Unit := do
  if task.status.phase = .failed ∧ task.status.completionTime = none then
    -- a retry broken off between its first and its last write
    let _ ← updateTaskStatus (setTaskPhase task .provisioning) none
  else if isTerminalTaskPhase task.status.phase then handleTTL task
  else reconcileActive cfg task

/-- `Reconcile` of the AgentTask reconciler. -/
def reconcileTask (cfg : Config) (key : NamespacedName) : Reconcile Unit := do
  match ← getTask key with
  | .error .notFound => return ()
  | .error e => Prog.fail e
  | .ok task =>
    if task.deletionTimestamp.isSome then reconcileTaskDelete task
    else if task.finalizer then reconcileHeld cfg (observeTask task)
    else
      let _ ← writeTask { task with finalizer := true }

end Kaalm.Controller

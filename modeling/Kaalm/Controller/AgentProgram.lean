/-
  Controller/AgentProgram.lean --- the Agent reconciler
  (`internal/controller/agent_controller.go`, `agent_activity.go`).

  Written as `Controller/TaskProgram.lean` is.  The phase carries the time of its
  last change, so `setPhase` reads the clock when the phase changes.
-/
import Kaalm.Controller.TaskProgram

namespace Kaalm.Controller

open Kaalm.Foundation
open Kaalm.Gateway (Time Duration second)

def agentWorkload (key : NamespacedName) : Workload := ⟨.agent, key⟩

def crashLoopThreshold : Int := 5

/-! ## Local edits -/

/-- `setPhase` at a given time. -/
def movePhase (now : Time) (agent : Agent) (phase : AgentPhase) : Agent :=
  if agent.status.phase = phase then agent
  else
    { agent with
      status := { agent.status with phase := phase, phaseTransitionTime := some (metaTime now) } }

def setPhase (agent : Agent) (phase : AgentPhase) : Reconcile Agent := do
  let now ← readClock
  return movePhase now agent phase

def setReady (agent : Agent) (ok : Bool) (reason msg : String) : Agent :=
  { agent with status := { agent.status with ready := some ⟨ok, reason, msg⟩ } }

/-- `r.Status().Update(ctx, agent)`. -/
def updateAgentStatus (agent : Agent) : Reconcile Agent := do
  let rv ← writeAgentStatus agent
  return { agent with rv := rv }

def ownedPod (key : NamespacedName) : Reconcile (Option Pod) := do
  let pods ← listPods key.ns (agentPodLabels key.name)
  return ownedPodIn (agentWorkload key) pods none

/-! ## Activity -/

/-- The newer of two optional times. -/
def newerTime (current candidate : Option Time) : Option Time :=
  match candidate with
  | none => current
  | some c =>
    match current with
    | none => some c
    | some t => if c > t then some c else some t

/-- `mergedActivity`: the latest record of the selected source over all replicas. -/
def mergedActivity (reachable : List ReplicaActivity) (name : String) (source : ActivitySource) :
    Option Time :=
  let records := reachable.filterMap fun r => r.agents.lookup name
  let traffic := records.foldl (fun t a => newerTime t a.gatewayTraffic) none
  let heartbeat := records.foldl (fun t a => newerTime t a.heartbeat) none
  match source with
  | .agentHeartbeat => heartbeat
  | .both => newerTime traffic heartbeat
  | .gatewayTraffic => traffic

/-- The silence marker, and whether it is the synthetic one; `none` when the data
says nothing. -/
def silenceMarker (agent : Agent) (eff : EffectiveAgentSpec) (now : Time)
    (reachable : List ReplicaActivity) : Option (Time × Bool) :=
  match mergedActivity reachable agent.key.name eff.activitySource with
  | some last => some (last, false)
  | none =>
    if reachable.any fun r => now - r.startedAt ≥ eff.idleTimeout then
      agent.status.phaseTransitionTime.map fun t => (t, true)
    else none

/-- Running: idle once the marker, floored by the last activity, is old enough. -/
def evaluateRunning (agent : Agent) (eff : EffectiveAgentSpec) (now last : Time) : Agent :=
  let marker := max last (agent.status.lastActivityTime.getD last)
  if now - marker > eff.idleTimeout then
    let agent := movePhase now agent .idle
    { agent with status := { agent.status with lastActivityTime := some (metaTime marker) } }
  else agent

/-- Whether a recorded activity is newer than the stored one, at the second
resolution of stored times. -/
def freshActivity (agent : Agent) (last : Time) (synthetic : Bool) : Bool :=
  match agent.status.lastActivityTime with
  | some t => !synthetic && metaTime last > t
  | none => false

/-- Where the hibernation window is measured from. -/
def silenceStart (agent : Agent) (last : Time) (synthetic : Bool) : Time :=
  match agent.status.lastActivityTime with
  | some t => if synthetic || t > last then t else last
  | none => last

/-- Idle: back to Running on a fresh record, on to Hibernating after the delay. -/
def evaluateIdle (agent : Agent) (eff : EffectiveAgentSpec) (now last : Time)
    (synthetic : Bool) : Agent :=
  if freshActivity agent last synthetic then
    let agent := movePhase now agent .running
    { agent with status := { agent.status with lastActivityTime := some (metaTime last) } }
  else if eff.hibernationEnabled ∧
      now - silenceStart agent last synthetic > eff.idleTimeout + eff.hibernationDelay then
    movePhase now agent .hibernating
  else agent

def evaluateActivity (agent : Agent) (eff : EffectiveAgentSpec) (now : Time)
    (answer : Except ApiError (List ReplicaActivity × Nat)) : Agent :=
  let unreachable : Agent :=
    { agent with
      status := { agent.status with
        gatewayReachable := some ⟨false, "GatewayUnavailable",
          "no gateway activity data; idle transitions deferred"⟩ } }
  match answer with
  | .error _ => unreachable
  | .ok (reachable, total) =>
    if total = 0 ∨ reachable = [] then unreachable
    else
      let agent : Agent :=
        { agent with
          status := { agent.status with
            gatewayReachable := some ⟨true, "GatewayReady", "gateway activity data available"⟩ } }
      match silenceMarker agent eff now reachable with
      | none => agent
      | some (last, synthetic) =>
        match agent.status.phase with
        | .running => evaluateRunning agent eff now last
        | .idle => evaluateIdle agent eff now last synthetic
        | _ => agent

/-! ## Wake and hibernation -/

/-- `handleWake`: on a Hibernated agent Resuming is committed before the
annotation goes. -/
def handleWake (agent : Agent) : Reconcile Unit := do
  if agent.status.phase = .hibernated then
    let woken ← setPhase agent .resuming
    let now ← readClock
    let woken : Agent :=
      { woken with
        status := { woken.status with
          hibernatedAt := none, lastActivityTime := some (metaTime now) } }
    let woken ← updateAgentStatus
      (setReady woken false "Woken" "wake requested; recreating the Pod")
    let _ ← writeAgent { woken with wake := false }
  else
    let _ ← writeAgent { agent with wake := false }

def driveHibernating (agent : Agent) : Reconcile Unit := do
  match ← ownedPod agent.key with
  | some pod =>
    deleteOldPod (some pod)
    let _ ← updateAgentStatus agent
  | none =>
    let agent ← setPhase agent .hibernated
    let now ← readClock
    let agent : Agent :=
      { agent with
        status := { agent.status with hibernatedAt := some (metaTime now), podName := "" } }
    let _ ← updateAgentStatus
      (setReady agent false "Hibernated" "Pod deleted; PVC retained for wake")

/-! ## Gates -/

/-- A gate on an object that must exist: the condition to set when it does not. -/
def requireChild (κ : ChildKind) (ns name : String) (closed : Agent) :
    Reconcile (Option Agent) := do
  match ← getChild κ ⟨ns, name⟩ with
  | .ok _ => return none
  | .error .notFound => return some closed
  | .error e => Prog.fail e

def pullSecretGate (agent : Agent) (eff : EffectiveAgentSpec) : Reconcile (Option Agent) := do
  match ← missingPullSecret agent.key.ns eff.imagePullSecrets with
  | some ref =>
    return some (setReady agent false "ImagePullSecretMissing"
      ("imagePullSecret " ++ quoted ref ++ " missing in namespace " ++ quoted agent.key.ns))
  | none => return none

def handlerGate (agent : Agent) (eff : EffectiveAgentSpec) : Reconcile (Option Agent) :=
  if eff.handlerConfigMap = "" then return none
  else
    requireChild .configMap agent.key.ns eff.handlerConfigMap
      (setReady agent false "HandlerConfigMapNotFound"
        ("handler ConfigMap " ++ quoted eff.handlerConfigMap ++ " not found in namespace " ++
          quoted agent.key.ns))

def claimGate (agent : Agent) (eff : EffectiveAgentSpec) : Reconcile (Option Agent) :=
  if eff.persistenceOn ∧ eff.existingClaim ≠ "" then
    requireChild .persistentVolumeClaim agent.key.ns eff.existingClaim
      (setReady agent false "ExistingClaimNotFound"
        ("existingClaim " ++ quoted eff.existingClaim ++ " not found in namespace " ++
          quoted agent.key.ns))
  else return none

/-- `readyGates`: the agent with its condition set when a gate is closed. -/
def readyGates (agent : Agent) (eff : EffectiveAgentSpec) : Reconcile (Option Agent) := do
  if eff.image = "" then
    return some (setReady agent false "InvalidReference"
      "no image: Agent.spec.image is empty and the AgentClass sets no defaultImage")
  else
    match ← claimGate agent eff with
    | some closed => return some closed
    | none =>
      match ← pullSecretGate agent eff with
      | some closed => return some closed
      | none => handlerGate agent eff

/-! ## Degraded -/

/-- `enterOrStayDegraded`: the phase to return to is recorded on entry only. -/
def enterOrStayDegraded (agent : Agent) (first : Violation) : Reconcile Unit := do
  let now ← readClock
  let agent : Agent :=
    if agent.status.phase = .degraded then agent
    else
      movePhase now
        { agent with status := { agent.status with preDegradedPhase := agent.status.phase } }
        .degraded
  let _ ← updateAgentStatus (setReady agent false first.reason first.message)

/-- The recovery half of `reconcileDegraded`. -/
def restoreFromDegraded (agent : Agent) : Reconcile Unit := do
  let restored :=
    if agent.status.preDegradedPhase = .unset then .pending else agent.status.preDegradedPhase
  let agent ← setPhase agent restored
  let _ ← updateAgentStatus
    { agent with status := { agent.status with preDegradedPhase := .unset } }

/-- `reconcileBudgetCondition`: the condition, never the phase. -/
def reconcileBudgetCondition (agent : Agent) : Reconcile Agent := do
  let blocking ← getBlockedProviders (agentWorkload agent.key)
  let condition : Option Condition :=
    if blocking = [] then none
    else some ⟨true, "BudgetExhausted", "namespace " ++ quoted agent.key.ns ++
      " budget exhausted on provider " ++ String.intercalate ", " blocking⟩
  return { agent with status := { agent.status with degraded := condition } }

/-! ## Children -/

def ensureCertificate (key : NamespacedName) : Reconcile Bool := do
  match ← getChild .certificate ⟨key.ns, agentCertificateName key.name⟩ with
  | .ok cert => return cert.val.ready
  | .error .notFound =>
    match ← createChild .certificate ⟨key.ns, agentCertificateName key.name⟩
        (desiredCertificate key) (agentWorkload key) with
    | .ok _ => return false
    | .error e => Prog.fail e
  | .error e => Prog.fail e

/-- `r.Create(ctx, desired)`: any error ends the pass. -/
def createOrFail (κ : ChildKind) (key : NamespacedName) (val : Child κ) (owner : Workload) :
    Reconcile Unit := do
  match ← createChild κ key val owner with
  | .ok _ => return ()
  | .error e => Prog.fail e

/-- The Service of `ensureService`: created, or its ports overwritten. -/
def convergeService (key : NamespacedName) (eff : EffectiveAgentSpec) : Reconcile Unit := do
  match ← getChild .service key with
  | .ok current =>
    if current.val = desiredService eff then return ()
    else updateChild .service key { current with val := desiredService eff }
  | .error .notFound => createOrFail .service key (desiredService eff) (agentWorkload key)
  | .error e => Prog.fail e

def ensureService (agent : Agent) (eff : EffectiveAgentSpec) : Reconcile Agent := do
  if eff.serviceEnabled then
    convergeService agent.key eff
    return { agent with
      status := { agent.status with
        endpoint := "https://" ++ agent.key.name ++ "." ++ agent.key.ns ++
          ".svc.cluster.local:" ++ toString eff.servicePort } }
  else return agent

/-- `ensurePVC`, when the volume is the agent's own. -/
def ensurePVC (agent : Agent) (eff : EffectiveAgentSpec) : Reconcile Agent := do
  if eff.persistenceOn ∧ eff.existingClaim = "" then
    createIfMissing .persistentVolumeClaim ⟨agent.key.ns, agentPVCName agent.key.name⟩ ()
      (agentWorkload agent.key)
    return { agent with status := { agent.status with pvcName := agentPVCName agent.key.name } }
  else return agent

/-- `ensureNetworkPolicy`: created, or its spec overwritten, whoever owns it. -/
def ensureNetworkPolicy (cfg : Config) (key : NamespacedName) (cls : AgentClass)
    (eff : EffectiveAgentSpec) : Reconcile Unit := do
  let desired := desiredNetworkPolicy key.name cls eff cfg.operatorNamespace
  match ← getChild .networkPolicy key with
  | .ok current => updateChild .networkPolicy key { current with val := desired }
  | .error .notFound => createOrFail .networkPolicy key desired (agentWorkload key)
  | .error e => Prog.fail e

/-- `ensureChildren`: everything except the Certificate and the Pod. -/
def ensureChildren (cfg : Config) (agent : Agent) (cls : AgentClass) (eff : EffectiveAgentSpec) :
    Reconcile Agent := do
  let key := agent.key
  createIfMissing .serviceAccount ⟨key.ns, agentServiceAccountName key.name⟩ () (agentWorkload key)
  let agent ← ensureService agent eff
  let agent ← ensurePVC agent eff
  ensureNetworkPolicy cfg key cls eff
  return agent

/-! ## The Pod -/

def crashLooping (pod : Pod) : Option (String × Waiting) :=
  pod.containerStatuses.findSome? fun cs =>
    match cs.waiting with
    | some w =>
      if (w.reason = "CrashLoopBackOff" ∧ cs.restartCount ≥ crashLoopThreshold) ∨
          w.reason = "ImagePullBackOff" then some (cs.name, w)
      else none
    | none => none

/-- `r.Delete(ctx, pod)`: any error ends the pass. -/
def deletePodOrFail (pod : Pod) : Reconcile Unit := do
  match ← deletePod pod.uid with
  | .ok _ => return ()
  | .error e => Prog.fail e

/-- `convergePod` without a Pod. -/
def provisionAgentPod (cfg : Config) (agent : Agent) (eff : EffectiveAgentSpec) :
    Reconcile Agent := do
  let pod ← createPod (desiredPod cfg agent.key eff)
  let agent ← setPhase agent .provisioning
  let agent := setReady agent false "PodProvisioning" "agent Pod created, waiting for readiness"
  return { agent with status := { agent.status with podName := pod.name } }

/-- A ready Pod promotes every phase but Idle. -/
def promote (agent : Agent) : Reconcile Agent :=
  if agent.status.phase ≠ .idle then setPhase agent .running else return agent

/-- `convergePod` on a live Pod that is not terminal: crash loops, drift,
readiness. -/
def convergeLivePod (cfg : Config) (agent : Agent) (eff : EffectiveAgentSpec) (pod : Pod) :
    Reconcile Agent := do
  match crashLooping pod with
  | some (name, w) =>
    let agent ← setPhase agent .failed
    return setReady agent false w.reason ("container " ++ name ++ ": " ++ w.message)
  | none =>
    if pod.specHash ≠ some (podSpecHash cfg eff) then
      let agent ← setPhase agent .provisioning
      deletePodOrFail pod
      return setReady agent false "SpecDrift" "replacing Pod for updated spec"
    else
      let agent : Agent := { agent with status := { agent.status with podName := pod.name } }
      if pod.ready then
        let agent ← promote agent
        return setReady agent true "PodRunning" "agent Pod is ready"
      else
        let agent ← setPhase agent .provisioning
        return setReady agent false "PodNotReady" "agent Pod is not ready"

def convergePod (cfg : Config) (agent : Agent) (eff : EffectiveAgentSpec) : Reconcile Agent := do
  match ← ownedPod agent.key with
  | none => provisionAgentPod cfg agent eff
  | some pod =>
    if pod.deletionTimestamp.isSome then
      -- a replacement in progress: wait until the old Pod is gone
      let agent ← setPhase agent .provisioning
      return setReady agent false "PodProvisioning" "previous Pod terminating"
    else if pod.phase.terminal then
      let agent ← setPhase agent .provisioning
      deletePodOrFail pod
      return setReady agent false "PodDisrupted" "replacing a terminal Pod"
    else convergeLivePod cfg agent eff pod

/-! ## Deletion -/

/-- Strip the volume's controller reference. -/
def releaseVolume (key : NamespacedName) : Reconcile Unit := do
  let pvc : NamespacedName := ⟨key.ns, agentPVCName key.name⟩
  match ← getChild .persistentVolumeClaim pvc with
  | .ok current =>
    if current.owner = some (agentWorkload key) then
      updateChild .persistentVolumeClaim pvc { current with owner := none }
    else return ()
  | .error .notFound => return ()
  | .error e => Prog.fail e

/-- The retention the class asks for; a class that cannot be read counts as
Delete. -/
def retention (agent : Agent) : Reconcile String := do
  match ← getClass agent.spec.agentClassRef with
  | .ok cls => return if cls.pvcRetention = "" then "Delete" else cls.pvcRetention
  | .error _ => return "Delete"

/-- `pvcRetention: Retain` keeps the volume. -/
def retainVolume (agent : Agent) : Reconcile Unit := do
  let kept ← retention agent
  if kept = "Retain" then releaseVolume agent.key else return ()

/-- The rest of `reconcileDelete` once the phase is Terminating. -/
def finalizeAgent (agent : Agent) : Reconcile Unit := do
  match ← ownedPod agent.key with
  | some pod => deleteOldPod (some pod)
  | none =>
    retainVolume agent
    let _ ← writeAgent { agent with finalizer := false }

/-- `reconcileDelete`. -/
def reconcileAgentDelete (agent : Agent) : Reconcile Unit := do
  if agent.finalizer then
    if agent.status.phase = .terminating then finalizeAgent agent
    else
      let agent ← setPhase
        { agent with status := { agent.status with preDegradedPhase := .unset } } .terminating
      let agent ← updateAgentStatus agent
      finalizeAgent agent
  else return ()

/-! ## The pass -/

/-- Pending becomes Provisioning while the certificate is awaited. -/
def leavePending (agent : Agent) : Reconcile Agent :=
  if agent.status.phase = .pending then setPhase agent .provisioning else return agent

def convergeAgent (cfg : Config) (agent : Agent) (cls : AgentClass) (eff : EffectiveAgentSpec) :
    Reconcile Unit := do
  let certReady ← ensureCertificate agent.key
  if certReady then
    let agent ← ensureChildren cfg agent cls eff
    let agent ← convergePod cfg agent eff
    if (agent.status.phase = .running ∨ agent.status.phase = .idle) ∧ eff.idleTimeout > 0 ∧
        cfg.activityClient then
      let now ← readClock
      let answer ← getActivity agent.key.ns
      let _ ← updateAgentStatus (evaluateActivity agent eff now answer)
    else
      let _ ← updateAgentStatus agent
  else
    let agent ← leavePending agent
    let _ ← updateAgentStatus (setReady agent false "CertificateNotReady"
      "waiting for cert-manager to issue the agent certificate")

/-- The pass over an agent that violates no constraint. -/
def reconcileHealthy (cfg : Config) (agent : Agent) (cls : AgentClass)
    (eff : EffectiveAgentSpec) : Reconcile Unit := do
  let agent ← reconcileBudgetCondition agent
  match agent.status.phase with
  | .hibernating => driveHibernating agent
  | .hibernated =>
    let _ ← updateAgentStatus agent
  | _ =>
    match ← readyGates agent eff with
    | some closed =>
      let _ ← updateAgentStatus closed
    | none => convergeAgent cfg agent cls eff

/-- The pass over an agent without a wake annotation. -/
def reconcileAwake (cfg : Config) (agent : Agent) : Reconcile Unit := do
  if agent.key.ns = cfg.operatorNamespace then
    let _ ← updateAgentStatus (setReady agent false "SystemNamespaceForbidden"
      ("Agents may not run in the operator namespace " ++ quoted cfg.operatorNamespace))
  else
    match ← getClass agent.spec.agentClassRef with
    | .error .notFound =>
      let _ ← updateAgentStatus (setReady agent false "InvalidReference"
        ("AgentClass " ++ quoted agent.spec.agentClassRef ++ " does not exist"))
    | .error e => Prog.fail e
    | .ok cls =>
      match ← getViolations (agentWorkload agent.key) with
      | v :: _ => enterOrStayDegraded agent v
      | [] =>
        if agent.status.phase = .degraded then restoreFromDegraded agent
        else reconcileHealthy cfg agent cls (deriveEffectiveSpec agent.spec cls)

def observeAgent (agent : Agent) : Reconcile Agent := do
  let agent : Agent :=
    { agent with status := { agent.status with observedGeneration := agent.generation } }
  if agent.status.phase = .unset then setPhase agent .pending else return agent

/-- `Reconcile` of the Agent reconciler. -/
def reconcileAgent (cfg : Config) (key : NamespacedName) : Reconcile Unit := do
  match ← getAgent key with
  | .error .notFound => return ()
  | .error e => Prog.fail e
  | .ok agent =>
    if agent.deletionTimestamp.isSome then reconcileAgentDelete agent
    else if agent.finalizer then
      let agent ← observeAgent agent
      if agent.wake then handleWake agent else reconcileAwake cfg agent
    else
      let _ ← writeAgent { agent with finalizer := true }

end Kaalm.Controller

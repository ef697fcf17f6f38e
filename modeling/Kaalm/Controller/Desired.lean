/-
  Controller/Desired.lean --- the desired children of a workload
  (`internal/controller/agent_desired.go`, `agenttask_desired.go`).

  The two builders share the names they give a Certificate (`{name}-tls`) and a
  NetworkPolicy (`{name}`), and differ in ServiceAccounts, labels and SAN shapes.
-/
import Kaalm.Controller.Objects

namespace Kaalm.Controller

open Kaalm.Foundation
open Kaalm.Gateway (Time Duration second)

/-- What the controller process is configured with, and the hash it stamps. -/
structure Config where
  operatorNamespace : String
  /-- whether an activity client is wired (`r.Activity != nil`) -/
  activityClient : Bool
  /-- `podSpecHash`: SHA-256 of the JSON of the replacement-triggering fields,
  which are image, command, args, env, resources, sorted providers, handler -/
  hash : String → List String → List String → List (String × String) → Resources →
    List String → String → String

/-! ## Effective specs -/

def clampResources (res : Resources) (maxLimits : GoMap String Int) : Resources :=
  maxLimits.entries.foldl (fun out e =>
    let limits :=
      match out.limits.lookup e.1 with
      | some lim => if lim > e.2 then out.limits.insert e.1 e.2 else out.limits
      | none => out.limits.insert e.1 e.2
    let requests :=
      match out.requests.lookup e.1 with
      | some req => if req > e.2 then out.requests.insert e.1 e.2 else out.requests
      | none => out.requests
    ⟨requests, limits⟩) res

def effectiveResources (res : Resources) (cls : AgentClass) : Resources :=
  clampResources
    (if res.requests.entries.isEmpty && res.limits.entries.isEmpty then cls.resourceDefaults
      else res) cls.maxLimits

structure EffectiveAgentSpec where
  image : String
  command : List String
  args : List String
  env : List (String × String)
  resources : Resources
  healthPort : Int
  servicePort : Int
  serviceEnabled : Bool
  persistenceOn : Bool
  existingClaim : String
  imagePullSecrets : List String
  podLabels : Labels
  providers : List String
  handlerConfigMap : String
  idleTimeout : Duration
  hibernationDelay : Duration
  hibernationEnabled : Bool
  activitySource : ActivitySource
  deriving DecidableEq

def defaultHealthPort : Int := 8080

def pickDuration (v default cap : Duration) : Duration :=
  let v := if v = 0 then default else v
  if cap > 0 ∧ v > cap then cap else v

def deriveEffectiveSpec (spec : AgentSpec) (cls : AgentClass) : EffectiveAgentSpec where
  image := if spec.image = "" then cls.defaultImage else spec.image
  command := spec.command
  args := spec.args
  env := spec.env
  resources := effectiveResources spec.resources cls
  healthPort := defaultHealthPort
  servicePort :=
    match spec.service with
    | some svc => if svc.port = 0 then defaultHealthPort else svc.port
    | none => defaultHealthPort
  serviceEnabled :=
    match spec.service with
    | some svc => svc.enabled
    | none => true
  persistenceOn := spec.persistenceEnabled
  existingClaim := spec.existingClaim.getD ""
  imagePullSecrets := cls.imagePullSecrets
  podLabels := cls.podLabels
  providers := spec.providers
  handlerConfigMap := spec.handler.getD ""
  idleTimeout := pickDuration spec.idleTimeout cls.defaultIdleTimeout cls.maxIdleTimeout
  hibernationDelay :=
    pickDuration spec.hibernationDelay cls.defaultHibernationDelay cls.maxHibernationDelay
  hibernationEnabled := spec.hibernationEnabled
  activitySource := spec.activitySource.getD .gatewayTraffic

def podSpecHash (cfg : Config) (eff : EffectiveAgentSpec) : String :=
  cfg.hash eff.image eff.command eff.args eff.env eff.resources
    (eff.providers.mergeSort fun a b => a ≤ b) eff.handlerConfigMap

structure EffectiveTaskSpec where
  image : String
  persistenceOn : Bool
  imagePullSecrets : List String
  podLabels : Labels
  deriving DecidableEq

def deriveEffectiveTaskSpec (spec : AgentTaskSpec) (cls : AgentClass) : EffectiveTaskSpec where
  image := if spec.image = "" then cls.defaultImage else spec.image
  persistenceOn := spec.persistenceEnabled
  imagePullSecrets := cls.imagePullSecrets
  podLabels := cls.podLabels

/-! ## Names -/

def agentCertificateName (name : String) : String := name ++ "-tls"
def agentPVCName (name : String) : String := name ++ "-memory"
def agentServiceAccountName (name : String) : String := "agent-" ++ name

def taskCertificateName (name : String) : String := name ++ "-tls"
def taskPVCName (name : String) : String := name ++ "-workspace"
def taskServiceAccountName (name : String) : String := "task-" ++ name
def taskCompletionRoleName (name : String) : String := "kaalm-task-" ++ name ++ "-completion"

def agentPodLabels (name : String) : Labels :=
  (AList.insert "kaalm.io/agent" name ∅).insert "kaalm.io/workload" "agent"

def taskPodLabels (name : String) : Labels :=
  (AList.insert "kaalm.io/task" name ∅).insert "kaalm.io/workload" "task"

def isAgentReported (spec : AgentTaskSpec) : Bool := spec.condition != .exitCode

/-! ## Certificates -/

def agentSANSuffix : String := "svc.cluster.local"
def taskSANSuffix : String := "task.kaalm.io"

/-- `desiredCertificate`, not yet issued. -/
def desiredCertificate (key : NamespacedName) : Certificate where
  secretName := agentCertificateName key.name
  dnsNames :=
    [key.name ++ "." ++ key.ns ++ ".svc.cluster.local",
      key.name ++ "." ++ key.ns ++ ".svc",
      key.name ++ "." ++ key.ns]
  ready := false

/-- `desiredTaskCertificate`, not yet issued. -/
def desiredTaskCertificate (key : NamespacedName) : Certificate where
  secretName := taskCertificateName key.name
  dnsNames := [key.name ++ "." ++ key.ns ++ "." ++ taskSANSuffix]
  ready := false

/-! ## NetworkPolicies -/

def gatewayPort : Nat := 8443

def gatewayPeer (operatorNamespace : String) : PolicyPeer where
  namespaceSelector := some (AList.insert "kubernetes.io/metadata.name" operatorNamespace ∅)
  podSelector := some (AList.insert "app.kubernetes.io/component" "gateway" ∅)
  cidr := none

def dnsPeer : PolicyPeer where
  namespaceSelector := some (AList.insert "kubernetes.io/metadata.name" "kube-system" ∅)
  podSelector := none
  cidr := none

/-- The egress rules both kinds share: the gateway, DNS, and the class CIDRs. -/
def classEgress (cls : AgentClass) (operatorNamespace : String) : List PolicyRule :=
  [⟨[gatewayPeer operatorNamespace], [⟨.tcp, gatewayPort⟩]⟩,
    ⟨[dnsPeer], [⟨.udp, 53⟩, ⟨.tcp, 53⟩]⟩] ++
  cls.allowedCIDRs.map fun cidr => ⟨[⟨none, none, some cidr⟩], []⟩

def desiredNetworkPolicy (name : String) (cls : AgentClass) (eff : EffectiveAgentSpec)
    (operatorNamespace : String) : NetworkPolicySpec where
  podSelector := agentPodLabels name
  policyTypes := [.ingress, .egress]
  ingress :=
    ⟨[gatewayPeer operatorNamespace], [⟨.tcp, eff.healthPort.toNat⟩]⟩ ::
      if cls.allowSameNamespaceIngress then [⟨[⟨none, some ∅, none⟩], []⟩] else []
  egress := classEgress cls operatorNamespace

/-- `desiredTaskNetworkPolicy`: no ingress at all. -/
def desiredTaskNetworkPolicy (name : String) (cls : AgentClass) (operatorNamespace : String) :
    NetworkPolicySpec where
  podSelector := taskPodLabels name
  policyTypes := [.ingress, .egress]
  ingress := []
  egress := classEgress cls operatorNamespace

/-! ## Services and Pods -/

def desiredService (eff : EffectiveAgentSpec) : List ServicePort :=
  [⟨eff.servicePort, eff.healthPort⟩]

/-- Class labels, overwritten by the workload's own. -/
def podLabels (cls own : Labels) : Labels := GoMap.overlay cls own

/-- `desiredPod` with its controller reference. -/
def desiredPod (cfg : Config) (key : NamespacedName) (eff : EffectiveAgentSpec) : PodTemplate where
  ns := key.ns
  generateName := key.name ++ "-"
  labels := podLabels eff.podLabels (agentPodLabels key.name)
  owner := ⟨.agent, key⟩
  serviceAccountName := agentServiceAccountName key.name
  tlsSecret := agentCertificateName key.name
  specHash := some (podSpecHash cfg eff)
  attempt := 0

/-- `desiredTaskPod` with its controller reference. -/
def desiredTaskPod (key : NamespacedName) (eff : EffectiveTaskSpec) (attempt : Nat) :
    PodTemplate where
  ns := key.ns
  generateName := key.name ++ "-"
  labels := podLabels eff.podLabels (taskPodLabels key.name)
  owner := ⟨.agentTask, key⟩
  serviceAccountName := taskServiceAccountName key.name
  tlsSecret := taskCertificateName key.name
  specHash := none
  attempt := attempt

/-! ## The completion mailbox -/

/-- `desiredCompletionConfigMap`: an empty mailbox. -/
def desiredCompletionConfigMap : Mailbox := ⟨∅, []⟩

structure CompletionPayload where
  status : String
  message : String
  artifacts : GoMap String String
  deriving DecidableEq

def cutPrefix (s pre : String) : Option String :=
  if pre.toList.isPrefixOf s.toList then some (String.ofList (s.toList.drop pre.toList.length))
  else none

def parseCompletion (data : GoMap String String) : CompletionPayload where
  status := (data.lookup "status").getD ""
  message := (data.lookup "message").getD ""
  artifacts := data.entries.foldl (fun m e =>
    match cutPrefix e.1 "artifact." with
    | some name => m.insert name e.2
    | none => m) ∅

/-- `validateArtifactNames`: the empty string when valid. -/
def validateArtifactNames (p : CompletionPayload) (declared : List String) : String :=
  match p.artifacts.keys.find? fun k => !declared.contains k with
  | some k => "undeclared artifact in payload: " ++ k
  | none =>
    if p.status = "success" then
      match declared.find? fun a => (p.artifacts.lookup a).isNone with
      | some a => "missing declared artifact: " ++ a
      | none => ""
    else ""

end Kaalm.Controller

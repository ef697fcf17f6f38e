/-
  Controller/Objects.lean --- the API objects the two workload reconcilers read
  and write (`api/v1beta1`, and the core, networking and cert-manager kinds they
  own).

  WHAT IS HERE.  The fields some modelled function reads; an empty Go string that
  stands for "not there" is an `Option`.

  GHOST FIELDS.  `Pod.attempt` and `Mailbox.writers` are not in the API: they
  record which attempt of a task a Pod was created for and which Pods' reports a
  completion mailbox holds.  No modelled function branches on them.
-/
import Kaalm.Foundation.GoMap
import Kaalm.Gateway.Period

namespace Kaalm.Controller

open Kaalm.Foundation
open Kaalm.Gateway (Time Duration second)

/-! ## Names and labels -/

structure NamespacedName where
  ns : String
  name : String
  deriving DecidableEq, Repr

inductive WorkloadKind where
  | agent
  | agentTask
  deriving DecidableEq, Repr

/-- An Agent or an AgentTask, as an owner. -/
structure Workload where
  kind : WorkloadKind
  key : NamespacedName
  deriving DecidableEq, Repr

@[elab_as_elim, cases_eliminator]
theorem Workload.byKind {motive : Workload → Prop} (agent : ∀ key, motive ⟨.agent, key⟩)
    (agentTask : ∀ key, motive ⟨.agentTask, key⟩) : ∀ w, motive w
  | ⟨.agent, key⟩ => agent key
  | ⟨.agentTask, key⟩ => agentTask key

abbrev UID : Type := Nat

abbrev Labels : Type := GoMap String String

/-- `client.MatchingLabels`, `LabelSelector.MatchLabels`: every pair of the
selector is there. -/
def Labels.selects (selector labels : Labels) : Bool :=
  selector.entries.all fun e => labels.lookup e.1 == some e.2

/-- `metav1.Now()` as the API server keeps it: whole seconds. -/
def metaTime (t : Time) : Time := t - t % second

/-- `metav1.Condition`, without its type and times. -/
structure Condition where
  status : Bool
  reason : String
  message : String
  deriving DecidableEq, Repr

/-! ## Pods -/

inductive PodPhase where
  | pending
  | running
  | succeeded
  | failed
  deriving DecidableEq, Repr

/-- `corev1.PodSucceeded` or `corev1.PodFailed`. -/
def PodPhase.terminal : PodPhase → Bool
  | .succeeded | .failed => true
  | .pending | .running => false

structure Waiting where
  reason : String
  message : String
  deriving DecidableEq, Repr

structure ContainerStatus where
  name : String
  waiting : Option Waiting
  /-- exit code of a terminated container -/
  terminated : Option Int
  restartCount : Int
  deriving DecidableEq, Repr

/-- What a reconciler asks the API server to create. -/
structure PodTemplate where
  ns : String
  generateName : String
  labels : Labels
  /-- the controller reference -/
  owner : Workload
  serviceAccountName : String
  /-- the Secret in the projected TLS volume -/
  tlsSecret : String
  /-- annotation `kaalm.io/pod-spec-hash` -/
  specHash : Option String
  /-- ghost: `status.retries` of the task the Pod is created for -/
  attempt : Nat
  deriving DecidableEq

structure Pod extends PodTemplate where
  uid : UID
  name : String
  creationTimestamp : Time
  deletionTimestamp : Option Time
  phase : PodPhase
  /-- condition Ready -/
  ready : Bool
  containerStatuses : List ContainerStatus
  deriving DecidableEq

def Pod.live (p : Pod) : Bool := p.deletionTimestamp.isNone

/-! ## Owned children -/

/-- A cert-manager Certificate; `ready` is its Ready condition. -/
structure Certificate where
  secretName : String
  dnsNames : List String
  ready : Bool
  deriving DecidableEq, Repr

structure Secret where
  dnsNames : List String
  deriving DecidableEq, Repr

inductive Protocol where
  | tcp
  | udp
  deriving DecidableEq, Repr

structure PolicyPort where
  protocol : Protocol
  port : Nat
  deriving DecidableEq, Repr

structure PolicyPeer where
  namespaceSelector : Option Labels
  podSelector : Option Labels
  cidr : Option String
  deriving DecidableEq

structure PolicyRule where
  peers : List PolicyPeer
  ports : List PolicyPort
  deriving DecidableEq

inductive PolicyType where
  | ingress
  | egress
  deriving DecidableEq, Repr

structure NetworkPolicySpec where
  podSelector : Labels
  policyTypes : List PolicyType
  ingress : List PolicyRule
  egress : List PolicyRule
  deriving DecidableEq

structure ServicePort where
  port : Int
  targetPort : Int
  deriving DecidableEq, Repr

/-- The ConfigMap `{task}-completion`. -/
structure Mailbox where
  data : GoMap String String
  /-- ghost: the Pods whose reports were merged into `data` since it was last
  emptied -/
  writers : List UID
  deriving DecidableEq

inductive ChildKind where
  | certificate
  | secret
  | networkPolicy
  | configMap
  | service
  | serviceAccount
  | persistentVolumeClaim
  | role
  | roleBinding
  deriving DecidableEq, Repr

abbrev Child : ChildKind → Type
  | .certificate => Certificate
  | .secret => Secret
  | .networkPolicy => NetworkPolicySpec
  | .configMap => Mailbox
  | .service => List ServicePort
  | .serviceAccount | .persistentVolumeClaim | .role | .roleBinding => Unit

instance : (κ : ChildKind) → DecidableEq (Child κ)
  | .certificate => inferInstanceAs (DecidableEq Certificate)
  | .secret => inferInstanceAs (DecidableEq Secret)
  | .networkPolicy => inferInstanceAs (DecidableEq NetworkPolicySpec)
  | .configMap => inferInstanceAs (DecidableEq Mailbox)
  | .service => inferInstanceAs (DecidableEq (List ServicePort))
  | .serviceAccount | .persistentVolumeClaim | .role | .roleBinding =>
    inferInstanceAs (DecidableEq Unit)

/-- A stored child: its content, its controller reference and its
resourceVersion. -/
structure Stored (κ : ChildKind) where
  val : Child κ
  owner : Option Workload
  rv : Nat
  deriving DecidableEq

/-! ## AgentClass -/

/-- `corev1.ResourceRequirements`, quantities as integers. -/
structure Resources where
  requests : GoMap String Int
  limits : GoMap String Int
  deriving DecidableEq

structure AgentClass where
  name : String
  defaultImage : String
  imagePullSecrets : List String
  podLabels : Labels
  allowedCIDRs : List String
  allowSameNamespaceIngress : Bool
  resourceDefaults : Resources
  maxLimits : GoMap String Int
  defaultIdleTimeout : Duration
  maxIdleTimeout : Duration
  defaultHibernationDelay : Duration
  maxHibernationDelay : Duration
  /-- `spec.persistence.pvcRetention` -/
  pvcRetention : String
  deriving DecidableEq

/-! ## Agent -/

inductive ActivitySource where
  | gatewayTraffic
  | agentHeartbeat
  | both
  deriving DecidableEq, Repr

structure AgentService where
  enabled : Bool
  port : Int
  deriving DecidableEq, Repr

structure AgentSpec where
  agentClassRef : String
  image : String
  command : List String
  args : List String
  env : List (String × String)
  /-- `spec.handler.configMapRef.name` -/
  handler : Option String
  providers : List String
  resources : Resources
  persistenceEnabled : Bool
  existingClaim : Option String
  idleTimeout : Duration
  hibernationDelay : Duration
  hibernationEnabled : Bool
  activitySource : Option ActivitySource
  service : Option AgentService
  deriving DecidableEq

inductive AgentPhase where
  /-- not yet reconciled: the empty string -/
  | unset
  | pending
  | provisioning
  | running
  | idle
  | hibernating
  | hibernated
  | resuming
  | degraded
  | failed
  | terminating
  deriving DecidableEq, Repr

structure AgentStatus where
  observedGeneration : Int
  phase : AgentPhase
  /-- condition Ready -/
  ready : Option Condition
  /-- condition Degraded, set by budget exhaustion -/
  degraded : Option Condition
  /-- condition GatewayReachable -/
  gatewayReachable : Option Condition
  endpoint : String
  podName : String
  pvcName : String
  lastActivityTime : Option Time
  phaseTransitionTime : Option Time
  hibernatedAt : Option Time
  /-- `unset` stands for the empty string -/
  preDegradedPhase : AgentPhase
  deriving DecidableEq

structure Agent where
  key : NamespacedName
  generation : Int
  rv : Nat
  finalizer : Bool
  deletionTimestamp : Option Time
  /-- annotation `kaalm.io/wake` is "true" -/
  wake : Bool
  spec : AgentSpec
  status : AgentStatus
  deriving DecidableEq

/-! ## AgentTask -/

inductive CompletionCondition where
  | agentReported
  | exitCode
  deriving DecidableEq, Repr

inductive OnTimeout where
  | fail
  | succeed
  deriving DecidableEq, Repr

structure AgentTaskSpec where
  agentClassRef : String
  image : String
  persistenceEnabled : Bool
  condition : CompletionCondition
  timeout : Duration
  onTimeout : OnTimeout
  backoffLimit : Int
  /-- names of the declared artifacts -/
  artifacts : List String
  ttlSecondsAfterFinished : Option Int
  deriving DecidableEq

inductive TaskPhase where
  /-- not yet reconciled: the empty string -/
  | unset
  | pending
  | provisioning
  | running
  | completing
  | succeeded
  | failed
  | timedOut
  | terminating
  deriving DecidableEq, Repr

structure AgentTaskStatus where
  observedGeneration : Int
  phase : TaskPhase
  /-- condition Ready -/
  ready : Option Condition
  /-- condition Completed -/
  completed : Option Condition
  startTime : Option Time
  completionTime : Option Time
  podName : String
  currentPodUID : Option UID
  retries : Nat
  artifactValues : GoMap String String
  agentReportedStatus : String
  agentReportedMessage : String
  deriving DecidableEq

structure AgentTask where
  key : NamespacedName
  generation : Int
  rv : Nat
  finalizer : Bool
  deletionTimestamp : Option Time
  spec : AgentTaskSpec
  status : AgentTaskStatus
  deriving DecidableEq

end Kaalm.Controller

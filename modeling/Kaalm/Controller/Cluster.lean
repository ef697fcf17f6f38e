/-
  Controller/Cluster.lean --- the API server the reconcilers talk to, and the
  world around them.

  OPERATIONS.  `Op` is the requests a reconciler makes; `apply` is what the API
  server does with one.  Updates are refused when their resourceVersion is not the
  stored one; a status update changes only the status, a metadata update only
  finalizers and annotations.  Classes, children and Pods are read through an informer
  cache and may be any earlier ones (`Choice.stale`, `Choice.listed`); tasks and Agents
  are read as they are stored.

  CHOICES.  An operation may fail without effect, and a write may take effect
  although its answer is lost.  What the cross-checks, the budgets and the gateway
  replicas report is chosen freely.

  ENVIRONMENT.  The kubelet, cert-manager, the garbage collector, users, and the
  gateway's completion handler, whose check and patch are two steps.  The specs
  of AgentTasks do not change.
-/
import Kaalm.Controller.Desired
import Kaalm.Gateway.Completion
import Kaalm.Foundation.Prog

namespace Kaalm.Controller

open Kaalm.Foundation
open Kaalm.Gateway (Time Duration second TaskCompleteRequest handleTaskComplete patchMailbox
  completionMailboxName)

inductive ApiError where
  | notFound
  | alreadyExists
  | conflict
  | other
  deriving DecidableEq, Repr

/-- An outstanding cross-check: its reason and message. -/
structure Violation where
  reason : String
  message : String
  deriving DecidableEq, Repr

/-- One replica's view of one agent. -/
structure AgentActivity where
  gatewayTraffic : Option Time
  heartbeat : Option Time
  deriving DecidableEq, Repr

/-- One replica's answer to `/v1/activity`. -/
structure ReplicaActivity where
  startedAt : Time
  agents : GoMap String AgentActivity
  deriving DecidableEq

/-- Ghost: what a status write of a task rests on. -/
inductive Cause where
  /-- the completion report in the mailbox, merged from these Pods' calls -/
  | report (writers : List UID)
  /-- a Pod that exited 0 -/
  | exitedZero (pod : UID)
  deriving DecidableEq, Repr

/-! ## Operations -/

inductive Op where
  | getAgent (key : NamespacedName)
  | updateAgent (agent : Agent)
  | updateAgentStatus (agent : Agent)
  | getTask (key : NamespacedName)
  | updateTask (task : AgentTask)
  | updateTaskStatus (task : AgentTask) (cause : Option Cause)
  | deleteTask (key : NamespacedName)
  | getClass (name : String)
  /-- the outstanding cross-checks of a workload against its class -/
  | violations (w : Workload)
  /-- the providers that report the workload's namespace as budget Blocked -/
  | blockedProviders (w : Workload)
  /-- `NamespaceActivity`: the replicas that answered, and how many there are -/
  | activity (ns : String)
  | get (κ : ChildKind) (key : NamespacedName)
  | create (κ : ChildKind) (key : NamespacedName) (val : Child κ) (owner : Workload)
  | update (κ : ChildKind) (key : NamespacedName) (obj : Stored κ)
  | listPods (ns : String) (selector : Labels)
  | createPod (template : PodTemplate)
  | deletePod (uid : UID)
  | now

/-- What an operation answers; an update answers the new resourceVersion. -/
abbrev Ans : Op → Type
  | .getAgent _ => Agent
  | .updateAgent _ => Nat
  | .updateAgentStatus _ => Nat
  | .getTask _ => AgentTask
  | .updateTask _ => Nat
  | .updateTaskStatus _ _ => Nat
  | .deleteTask _ => Unit
  | .getClass _ => AgentClass
  | .violations _ => List Violation
  | .blockedProviders _ => List String
  | .activity _ => List ReplicaActivity × Nat
  | .get κ _ => Stored κ
  | .create _ _ _ _ => Unit
  | .update _ _ _ => Unit
  | .listPods _ _ => List Pod
  | .createPod _ => Pod
  | .deletePod _ => Unit
  | .now => Time

abbrev Reconcile : Type → Type := Prog Op Ans ApiError

abbrev History : Type := Trace Op Ans ApiError

/-! ## Requests

The operations of a pass, typed by their answers.  A request whose error the
source inspects answers an `Except`; the error of any other ends the pass. -/

def getAgent (key : NamespacedName) : Reconcile (Except ApiError Agent) :=
  Prog.attempt (Op.getAgent key)

def getTask (key : NamespacedName) : Reconcile (Except ApiError AgentTask) :=
  Prog.attempt (Op.getTask key)

def getClass (name : String) : Reconcile (Except ApiError AgentClass) :=
  Prog.attempt (Op.getClass name)

def getChild (κ : ChildKind) (key : NamespacedName) : Reconcile (Except ApiError (Stored κ)) :=
  Prog.attempt (Op.get κ key)

def createChild (κ : ChildKind) (key : NamespacedName) (val : Child κ) (owner : Workload) :
    Reconcile (Except ApiError Unit) :=
  Prog.attempt (Op.create κ key val owner)

def updateChild (κ : ChildKind) (key : NamespacedName) (obj : Stored κ) : Reconcile Unit :=
  Prog.perform (Op.update κ key obj)

def listPods (ns : String) (selector : Labels) : Reconcile (List Pod) :=
  Prog.perform (Op.listPods ns selector)

def createPod (template : PodTemplate) : Reconcile Pod := Prog.perform (Op.createPod template)

def deletePod (uid : UID) : Reconcile (Except ApiError Unit) := Prog.attempt (Op.deletePod uid)

def writeTask (task : AgentTask) : Reconcile Nat := Prog.perform (Op.updateTask task)

def writeTaskStatus (task : AgentTask) (cause : Option Cause) : Reconcile Nat :=
  Prog.perform (Op.updateTaskStatus task cause)

def removeTask (key : NamespacedName) : Reconcile (Except ApiError Unit) :=
  Prog.attempt (Op.deleteTask key)

def writeAgent (agent : Agent) : Reconcile Nat := Prog.perform (Op.updateAgent agent)

def writeAgentStatus (agent : Agent) : Reconcile Nat := Prog.perform (Op.updateAgentStatus agent)

def getActivity (ns : String) : Reconcile (Except ApiError (List ReplicaActivity × Nat)) :=
  Prog.attempt (Op.activity ns)

def getBlockedProviders (w : Workload) : Reconcile (List String) :=
  Prog.perform (Op.blockedProviders w)

def getViolations (w : Workload) : Reconcile (List Violation) := Prog.perform (Op.violations w)

def readClock : Reconcile Time := Prog.perform Op.now

/-! ## The store -/

/-- A completion call that has passed the gateway's gates and not yet patched. -/
structure Call where
  task : NamespacedName
  caller : UID
  data : GoMap String String
  deriving DecidableEq

/-- Ghost: a status write with a cause, and the attempt it was made in. -/
structure Outcome where
  task : NamespacedName
  attempt : Nat
  cause : Cause
  deriving DecidableEq, Repr

/-- What the informer caches hold of a store. -/
structure View where
  classes : String → Option AgentClass
  children : (κ : ChildKind) → NamespacedName → Option (Stored κ)
  pods : List Pod

structure Cluster extends View where
  agents : NamespacedName → Option Agent
  tasks : NamespacedName → Option AgentTask
  calls : List Call
  nextUID : UID
  revision : Nat
  clock : Time
  /-- ghost: the earlier views, latest first -/
  past : List View
  /-- ghost: every Pod ever created, as created -/
  created : List Pod
  /-- ghost: the outcomes settled so far, latest first -/
  outcomes : List Outcome

namespace Cluster

variable (s : Cluster)

def putAgent (key : NamespacedName) (a : Option Agent) : Cluster :=
  { s with agents := Function.update s.agents key a, revision := s.revision + 1 }

def putTask (key : NamespacedName) (t : Option AgentTask) : Cluster :=
  { s with tasks := Function.update s.tasks key t, revision := s.revision + 1 }

def putChild (κ : ChildKind) (key : NamespacedName) (c : Option (Stored κ)) : Cluster :=
  { s with
    children := Function.update s.children κ (Function.update (s.children κ) key c)
    past := s.toView :: s.past
    revision := s.revision + 1 }

def putPods (pods : List Pod) : Cluster :=
  { s with pods := pods, past := s.toView :: s.past, revision := s.revision + 1 }

/-- The views a cache may hold. -/
def views : List View := s.toView :: s.past

/-- The view `lag` changes ago, or the current one. -/
def viewAt (lag : Nat) : View := (s.views[lag]?).getD s.toView

def present (w : Workload) : Bool :=
  match w.kind with
  | .agent => (s.agents w.key).isSome
  | .agentTask => (s.tasks w.key).isSome

end Cluster

/-- `client.InNamespace`, `client.MatchingLabels`. -/
def selectPods (ns : String) (selector : Labels) (pods : List Pod) : List Pod :=
  pods.filter fun p => p.ns = ns ∧ selector.selects p.labels

def PodTemplate.instantiate (tpl : PodTemplate) (uid : UID) (now : Time) : Pod :=
  { tpl with
    uid := uid
    name := tpl.generateName ++ toString uid
    creationTimestamp := metaTime now
    deletionTimestamp := none
    phase := .pending
    ready := false
    containerStatuses := [] }

/-- Graceful deletion: the Pod stays visible. -/
def Pod.terminate (now : Time) (p : Pod) : Pod :=
  { p with deletionTimestamp := p.deletionTimestamp.orElse fun _ => some (metaTime now) }

/-- `f` on the Pod with the given uid. -/
def mapPod (uid : UID) (f : Pod → Pod) (pods : List Pod) : List Pod :=
  pods.map fun p => if p.uid = uid then f p else p

/-! ## What the API server does -/

/-- Update the stored object if the resourceVersion still matches. -/
def checkedUpdate {α β : Type} (cur : Option α) (rvOf : α → Nat) (rv : Nat) (s : Cluster)
    (f : α → β × Cluster) : Except ApiError β × Cluster :=
  match cur with
  | none => (.error .notFound, s)
  | some a =>
    if rvOf a = rv then ((.ok (f a).1, (f a).2) : Except ApiError β × Cluster)
    else (.error .conflict, s)

def found {α : Type} : Option α → Except ApiError α
  | none => .error .notFound
  | some a => .ok a

def fetch {α : Type} (cur : Option α) (s : Cluster) : Except ApiError α × Cluster := (found cur, s)

def View.answer (v : View) : (op : Op) → Option (Except ApiError (Ans op))
  | .getClass name => some (found (v.classes name))
  | .get κ key => some (found (v.children κ key))
  | _ => none

/-- An object whose deletion was requested goes with its last finalizer. -/
def unlessReleased {α : Type} (deleted finalizer : Bool) (a : α) : Option α :=
  if deleted && !finalizer then none else some a

def applyUpdateTask (t : AgentTask) (s : Cluster) : Except ApiError Nat × Cluster :=
  checkedUpdate (s.tasks t.key) (·.rv) t.rv s fun cur =>
    (s.revision + 1, s.putTask t.key (unlessReleased cur.deletionTimestamp.isSome t.finalizer
      { cur with finalizer := t.finalizer, rv := s.revision + 1 }))

/-- Ghost: the log after a status write. -/
def logOutcome (key : NamespacedName) (attempt : Nat) (cause : Option Cause)
    (log : List Outcome) : List Outcome :=
  match cause with
  | none => log
  | some c => ⟨key, attempt, c⟩ :: log

def applyUpdateTaskStatus (t : AgentTask) (cause : Option Cause) (s : Cluster) :
    Except ApiError Nat × Cluster :=
  checkedUpdate (s.tasks t.key) (·.rv) t.rv s fun cur =>
    (s.revision + 1,
      { s.putTask t.key (some { cur with status := t.status, rv := s.revision + 1 }) with
        outcomes := logOutcome t.key cur.status.retries cause s.outcomes })

def applyDeleteTask (key : NamespacedName) (s : Cluster) : Except ApiError Unit × Cluster :=
  match s.tasks key with
  | none => (.error .notFound, s)
  | some cur =>
    (.ok (), s.putTask key (unlessReleased true cur.finalizer
      { cur with
        deletionTimestamp := cur.deletionTimestamp.orElse fun _ => some (metaTime s.clock)
        rv := s.revision + 1 }))

def applyUpdateAgent (a : Agent) (s : Cluster) : Except ApiError Nat × Cluster :=
  checkedUpdate (s.agents a.key) (·.rv) a.rv s fun cur =>
    (s.revision + 1, s.putAgent a.key (unlessReleased cur.deletionTimestamp.isSome a.finalizer
      { cur with finalizer := a.finalizer, wake := a.wake, rv := s.revision + 1 }))

def applyUpdateAgentStatus (a : Agent) (s : Cluster) : Except ApiError Nat × Cluster :=
  checkedUpdate (s.agents a.key) (·.rv) a.rv s fun cur =>
    (s.revision + 1, s.putAgent a.key (some { cur with status := a.status, rv := s.revision + 1 }))

def applyCreate (κ : ChildKind) (key : NamespacedName) (val : Child κ) (owner : Workload)
    (s : Cluster) : Except ApiError Unit × Cluster :=
  match s.children κ key with
  | some _ => (.error .alreadyExists, s)
  | none => (.ok (), s.putChild κ key (some ⟨val, some owner, s.revision + 1⟩))

def applyUpdate (κ : ChildKind) (key : NamespacedName) (obj : Stored κ) (s : Cluster) :
    Except ApiError Unit × Cluster :=
  checkedUpdate (s.children κ key) (·.rv) obj.rv s fun _ =>
    ((), s.putChild κ key (some { obj with rv := s.revision + 1 }))

def applyCreatePod (tpl : PodTemplate) (s : Cluster) : Except ApiError Pod × Cluster :=
  let pod := tpl.instantiate s.nextUID s.clock
  (.ok pod, { s.putPods (s.pods ++ [pod]) with
    nextUID := s.nextUID + 1, created := s.created ++ [pod] })

def applyDeletePod (uid : UID) (s : Cluster) : Except ApiError Unit × Cluster :=
  if s.pods.any (·.uid = uid) then (.ok (), s.putPods (mapPod uid (Pod.terminate s.clock) s.pods))
  else (.error .notFound, s)

def apply : (op : Op) → Cluster → Except ApiError (Ans op) × Cluster
  | .getAgent key, s => fetch (s.agents key) s
  | .updateAgent a, s => applyUpdateAgent a s
  | .updateAgentStatus a, s => applyUpdateAgentStatus a s
  | .getTask key, s => fetch (s.tasks key) s
  | .updateTask t, s => applyUpdateTask t s
  | .updateTaskStatus t cause, s => applyUpdateTaskStatus t cause s
  | .deleteTask key, s => applyDeleteTask key s
  | .getClass name, s => fetch (s.classes name) s
  | .violations _, s => (.ok [], s)
  | .blockedProviders _, s => (.ok [], s)
  | .activity _, s => (.ok ([], 0), s)
  | .get κ key, s => fetch (s.children κ key) s
  | .create κ key val owner, s => applyCreate κ key val owner s
  | .update κ key obj, s => applyUpdate κ key obj s
  | .listPods ns selector, s => (.ok (selectPods ns selector s.pods), s)
  | .createPod tpl, s => applyCreatePod tpl s
  | .deletePod uid, s => applyDeletePod uid s
  | .now, s => (.ok s.clock, s)

inductive Choice where
  | ok
  /-- an error, and no effect -/
  | failed
  /-- the effect, and an error -/
  | lost
  /-- a class or a child as it was `lag` changes ago -/
  | stale (lag : Nat)
  /-- this answer to a Pod list, `lag` changes old -/
  | listed (lag : Nat) (pods : List Pod)
  | violations (vs : List Violation)
  | blockedProviders (names : List String)
  | activity (reachable : List ReplicaActivity) (total : Nat)
  deriving DecidableEq

/-- An answer to a Pod list: the right Pods of that moment, in any order. -/
def answerList (ns : String) (selector : Labels) (lag : Nat) (pods : List Pod) (s : Cluster) :
    Option (Except ApiError (List Pod) × Cluster) :=
  if (selectPods ns selector (s.viewAt lag).pods).isPerm pods then some (.ok pods, s) else none

def execute : (op : Op) → Choice → Cluster → Option (Except ApiError (Ans op) × Cluster)
  | op, .ok, s => some (apply op s)
  | _, .failed, s => some (.error .other, s)
  | op, .lost, s => some (.error .other, (apply op s).2)
  | op, .stale lag, s => ((s.viewAt lag).answer op).map fun r => (r, s)
  | .listPods ns selector, .listed lag pods, s => answerList ns selector lag pods s
  | .violations _, .violations vs, s => some (.ok vs, s)
  | .blockedProviders _, .blockedProviders names, s => some (.ok names, s)
  | .activity _, .activity reachable total, s => some (.ok (reachable, total), s)
  | _, _, _ => none

/-- The read is answered with something else than what is stored. -/
def lags (s : Cluster) : Op → Choice → Bool
  | .getClass name, .stale lag => (s.viewAt lag).classes name ≠ s.classes name
  | .get κ key, .stale lag => (s.viewAt lag).children κ key ≠ s.children κ key
  | _, _ => false

/-! ## The environment -/

inductive EnvEvent where
  | tick (d : Nat)
  /-- the kubelet reports a Pod's status -/
  | podStatus (uid : UID) (phase : PodPhase) (ready : Bool) (statuses : List ContainerStatus)
  /-- eviction, drain, `kubectl delete` -/
  | podDelete (uid : UID)
  /-- a terminating or lost Pod leaves the API -/
  | podGone (uid : UID)
  /-- cert-manager fills the Secret of a Certificate and marks it Ready -/
  | issue (key : NamespacedName)
  /-- cert-manager takes Ready back, for a renewal -/
  | unready (key : NamespacedName)
  /-- a completion call passes the gateway's gates -/
  | call (task : NamespacedName) (caller : UID) (req : TaskCompleteRequest)
  /-- the patch of a pending call lands -/
  | patch (i : Nat)
  /-- a pending call gives up -/
  | drop (i : Nat)
  | deleteTask (key : NamespacedName)
  | deleteAgent (key : NamespacedName)
  /-- some other metadata of the object changes -/
  | touchTask (key : NamespacedName)
  | wakeAgent (key : NamespacedName)
  | editAgent (key : NamespacedName) (spec : AgentSpec)
  | editClass (name : String) (cls : AgentClass)
  /-- the garbage collector removes a child whose owner is gone -/
  | collect (κ : ChildKind) (key : NamespacedName)
  deriving DecidableEq

/-- The ConfigMap of a task's mailbox. -/
def mailboxKey (task : NamespacedName) : NamespacedName :=
  ⟨task.ns, completionMailboxName task.name⟩

/-- A terminal Pod phase is final. -/
def Pod.observe (phase : PodPhase) (ready : Bool) (statuses : List ContainerStatus) (p : Pod) :
    Pod :=
  if p.phase.terminal then { p with containerStatuses := statuses }
  else { p with phase := phase, ready := ready, containerStatuses := statuses }

/-- cert-manager: the Secret named by the Certificate gets its DNS names. -/
def issueCertificate (key : NamespacedName) (c : Stored .certificate) (s : Cluster) : Cluster :=
  let filled := s.putChild .secret ⟨key.ns, c.val.secretName⟩
    (some ⟨⟨c.val.dnsNames⟩, none, s.revision + 1⟩)
  { filled.putChild .certificate key (some { c with
      val := { c.val with ready := true }, rv := filled.revision + 1 }) with
    past := s.toView :: s.past }

/-- The merge of a pending call into its mailbox, if the mailbox is there. -/
def landPatch (c : Call) (s : Cluster) : Cluster :=
  match s.children .configMap (mailboxKey c.task) with
  | none => s
  | some box =>
    s.putChild .configMap (mailboxKey c.task)
      (some { box with val := patchMailbox box.val c.caller c.data, rv := s.revision + 1 })

def deleteAgent (key : NamespacedName) (cur : Agent) (s : Cluster) : Cluster :=
  s.putAgent key (unlessReleased true cur.finalizer
    { cur with
      deletionTimestamp := cur.deletionTimestamp.orElse fun _ => some (metaTime s.clock)
      rv := s.revision + 1 })

def envStep (s : Cluster) : EnvEvent → Option Cluster
  | .tick d => some { s with clock := s.clock + d }
  | .podStatus uid phase ready statuses =>
    some (s.putPods (mapPod uid (Pod.observe phase ready statuses) s.pods))
  | .podDelete uid => some (s.putPods (mapPod uid (Pod.terminate s.clock) s.pods))
  | .podGone uid => some (s.putPods (s.pods.filter (·.uid ≠ uid)))
  | .issue key => (s.children .certificate key).map fun c => issueCertificate key c s
  | .unready key =>
    (s.children .certificate key).map fun c =>
      s.putChild .certificate key
        (some { c with val := { c.val with ready := false }, rv := s.revision + 1 })
  | .call task caller req =>
    match handleTaskComplete (s.tasks task)
        (if s.pods.any (·.uid = caller) then some caller else none) req with
    | .ok data => some { s with calls := s.calls ++ [⟨task, caller, data⟩] }
    | .error _ => none
  | .patch i =>
    (s.calls[i]?).map fun c => { landPatch c s with calls := s.calls.eraseIdx i }
  | .drop i => some { s with calls := s.calls.eraseIdx i }
  | .deleteTask key => some (applyDeleteTask key s).2
  | .deleteAgent key => (s.agents key).map fun cur => deleteAgent key cur s
  | .touchTask key =>
    (s.tasks key).map fun t => s.putTask key (some { t with rv := s.revision + 1 })
  | .wakeAgent key =>
    (s.agents key).map fun a => s.putAgent key (some { a with wake := true, rv := s.revision + 1 })
  | .editAgent key spec =>
    (s.agents key).map fun a =>
      s.putAgent key
        (some { a with spec := spec, generation := a.generation + 1, rv := s.revision + 1 })
  | .editClass name cls =>
    some { s with
      classes := Function.update s.classes name (some cls), past := s.toView :: s.past }
  | .collect κ key =>
    match s.children κ key with
    | some c =>
      match c.owner with
      | some w => if s.present w then none else some (s.putChild κ key none)
      | none => none
    | none => none

end Kaalm.Controller

/-
  Controller/System.lean --- the two reconcilers over one API server, and what a
  pass may conclude from its own history.

  `system` is the pool: one worker per workload, as controller-runtime never runs
  two passes of one key at once.  The predicates on histories say what a pass has
  seen of its children; they are common to both reconcilers.
-/
import Kaalm.Controller.AgentProgram
import Kaalm.Foundation.Pool

namespace Kaalm.Controller

open Kaalm.Foundation
open Prog (Safe)

def reconcile (cfg : Config) (w : Workload) : Reconcile Unit :=
  match w.kind with
  | .agent => reconcileAgent cfg w.key
  | .agentTask => reconcileTask cfg w.key

/-- The controller manager and its environment. -/
def system (cfg : Config) : PoolSpec Cluster Workload Op Ans ApiError Choice EnvEvent :=
  ⟨reconcile cfg, execute, envStep⟩

abbrev State : Type := Pool Cluster Workload Op Ans ApiError

abbrev Event : Type := PoolEvent Workload Choice EnvEvent

abbrev Observed : Type := Obs Op Ans ApiError

/-- What may be taken for granted of an answer: an object is the one asked for,
and a created Pod is made of its template. -/
def honest : Observed → Prop
  | ⟨.getAgent key, .ok a⟩ => a.key = key
  | ⟨.getTask key, .ok t⟩ => t.key = key
  | ⟨.createPod tpl, .ok p⟩ => p.toPodTemplate = tpl
  | _ => True

/-! ## Children of a workload -/

def certificateKey (w : Workload) : NamespacedName :=
  match w.kind with
  | .agent => ⟨w.key.ns, agentCertificateName w.key.name⟩
  | .agentTask => ⟨w.key.ns, taskCertificateName w.key.name⟩

def certificateFor (w : Workload) : Certificate :=
  match w.kind with
  | .agent => desiredCertificate w.key
  | .agentTask => desiredTaskCertificate w.key

def workloadLabels (w : Workload) : Labels :=
  match w.kind with
  | .agent => agentPodLabels w.key.name
  | .agentTask => taskPodLabels w.key.name

/-- The pass has read its own object, with the finalizer on it and no deletion
requested. -/
def SawSelf (w : Workload) (tr : History) : Prop :=
  match w.kind with
  | .agent => ∃ a : Agent, ⟨.getAgent w.key, .ok a⟩ ∈ tr ∧ a.finalizer = true ∧
      a.deletionTimestamp = none
  | .agentTask => ∃ t : AgentTask, ⟨.getTask w.key, .ok t⟩ ∈ tr ∧ t.finalizer = true ∧
      t.deletionTimestamp = none

/-- The NetworkPolicy derived from the spec and the class the pass has read. -/
def PolicyFor (cfg : Config) (w : Workload) (tr : History) (policy : NetworkPolicySpec) : Prop :=
  match w.kind with
  | .agent => ∃ (a : Agent) (cls : AgentClass),
      ⟨.getAgent w.key, .ok a⟩ ∈ tr ∧ ⟨.getClass a.spec.agentClassRef, .ok cls⟩ ∈ tr ∧
      policy = desiredNetworkPolicy w.key.name cls (deriveEffectiveSpec a.spec cls)
        cfg.operatorNamespace
  | .agentTask => ∃ (t : AgentTask) (cls : AgentClass),
      ⟨.getTask w.key, .ok t⟩ ∈ tr ∧ ⟨.getClass t.spec.agentClassRef, .ok cls⟩ ∈ tr ∧
      policy = desiredTaskNetworkPolicy w.key.name cls cfg.operatorNamespace

def MayCreate (cfg : Config) (w : Workload) (tr : History) :
    (κ : ChildKind) → NamespacedName → Child κ → Prop
  | .certificate, key, val => key = certificateKey w ∧ val = certificateFor w ∧ SawSelf w tr
  | .networkPolicy, key, val => key = w.key ∧ PolicyFor cfg w tr val ∧ SawSelf w tr
  | .configMap, key, val =>
    w.kind = .agentTask ∧ key = mailboxKey w.key ∧ val = desiredCompletionConfigMap
  | .persistentVolumeClaim, _, _ => SawSelf w tr
  | .secret, _, _ => False
  | _, _, _ => True

/-- The children a pass may overwrite: an agent its NetworkPolicy, its Service and
its volume, a task its mailbox.  The owner stays the one that was read; a volume is
only ever released. -/
def MayUpdate (cfg : Config) (w : Workload) (tr : History) :
    (κ : ChildKind) → NamespacedName → Stored κ → Prop
  | .certificate, _, _ => False
  | .secret, _, _ => False
  | .networkPolicy, key, obj =>
    w.kind = .agent ∧ key = w.key ∧ PolicyFor cfg w tr obj.val ∧ SawSelf w tr ∧
      ∃ cur : Stored .networkPolicy, ⟨.get .networkPolicy key, .ok cur⟩ ∈ tr ∧
        obj.owner = cur.owner
  | .configMap, key, obj =>
    w.kind = .agentTask ∧ key = mailboxKey w.key ∧ obj.val = ⟨∅, []⟩ ∧
      ∃ cur : Stored .configMap, ⟨.get .configMap key, .ok cur⟩ ∈ tr ∧ obj.owner = cur.owner
  | .persistentVolumeClaim, _, obj => w.kind = .agent ∧ obj.owner = none
  | _, _, _ => True

def SawCertificate (w : Workload) (tr : History) : Prop :=
  ∃ cert : Stored .certificate, cert.val.ready = true ∧
    ⟨.get .certificate (certificateKey w), .ok cert⟩ ∈ tr

/-- The pass has written its NetworkPolicy, or found one under its name where it
only creates what is missing. -/
def SawPolicy (cfg : Config) (w : Workload) (tr : History) : Prop :=
  (∃ policy, PolicyFor cfg w tr policy ∧
    ⟨.create .networkPolicy w.key policy w, .ok ()⟩ ∈ tr) ∨
  (∃ obj : Stored .networkPolicy, PolicyFor cfg w tr obj.val ∧
    ⟨.update .networkPolicy w.key obj, .ok ()⟩ ∈ tr) ∨
  (w.kind = .agentTask ∧ ∃ policy, PolicyFor cfg w tr policy ∧
    ⟨.create .networkPolicy w.key policy w, .error .alreadyExists⟩ ∈ tr)

/-- Whether the last Pod list of the pass had no Pod of the workload, and the pass
has created none since. -/
def sawNoPod (w : Workload) : History → Bool
  | [] => false
  | ⟨.listPods _ _, .ok pods⟩ :: _ => (ownedPodIn w pods none).isNone
  | ⟨.createPod _, _⟩ :: _ => false
  | _ :: tr => sawNoPod w tr

/-- What a pass has established when it creates a Pod. -/
structure MayCreatePod (cfg : Config) (w : Workload) (tr : History) (tpl : PodTemplate) : Prop where
  owner : tpl.owner = w
  ns : tpl.ns = w.key.ns
  labels : ∃ cls, tpl.labels = podLabels cls (workloadLabels w)
  tlsSecret : tpl.tlsSecret = (certificateKey w).name
  self : SawSelf w tr
  noPod : sawNoPod w tr = true
  certificate : SawCertificate w tr
  policy : SawPolicy cfg w tr

variable {tr : History} {w : Workload}

theorem PolicyFor.cons {cfg : Config} {policy : NetworkPolicySpec} (o : Observed)
    (h : PolicyFor cfg w tr policy) : PolicyFor cfg w (o :: tr) policy := by
  cases w with
  | agent =>
    obtain ⟨a, cls, ha, hc, hp⟩ := h
    exact ⟨a, cls, .tail o ha, .tail o hc, hp⟩
  | agentTask =>
    obtain ⟨t, cls, ht, hc, hp⟩ := h
    exact ⟨t, cls, .tail o ht, .tail o hc, hp⟩

theorem SawSelf.mono {tr' : History} (hg : tr ⊆ tr') (h : SawSelf w tr) :
    SawSelf w tr' := by
  cases w with
  | agent =>
    obtain ⟨a, ha, hrest⟩ := h
    exact ⟨a, hg ha, hrest⟩
  | agentTask =>
    obtain ⟨t, ht, hrest⟩ := h
    exact ⟨t, hg ht, hrest⟩

theorem SawCertificate.cons (o : Observed) (h : SawCertificate w tr) :
    SawCertificate w (o :: tr) := by
  obtain ⟨cert, hr, hm⟩ := h
  exact ⟨cert, hr, .tail o hm⟩

theorem SawPolicy.cons {cfg : Config} (o : Observed) (h : SawPolicy cfg w tr) :
    SawPolicy cfg w (o :: tr) := by
  rcases h with ⟨p, hp, hm⟩ | ⟨obj, hp, hm⟩ | ⟨hk, p, hp, hm⟩
  · exact .inl ⟨p, hp.cons o, .tail o hm⟩
  · exact .inr (.inl ⟨obj, hp.cons o, .tail o hm⟩)
  · exact .inr (.inr ⟨hk, p, hp.cons o, .tail o hm⟩)

/-! ## Steps of both reconcilers -/

/-- Nothing is asked of what a pass leaves behind. -/
def done {α : Type} : α → History → Prop := fun _ _ => True

section Shared

variable {C : Contract Op Ans ApiError} {P : History → Prop}

theorem safe_attempt {α : Type} {Q : α → History → Prop} {op : Op}
    {f : Except ApiError (Ans op) → Reconcile α} (expected : ApiError) (hop : C.allows tr op)
    (hok : ∀ a, C.answers ⟨op, .ok a⟩ → Safe C Q (f (.ok a)) (⟨op, .ok a⟩ :: tr))
    (herror : Safe C Q (f (.error expected)) (⟨op, .error expected⟩ :: tr))
    (hother : ∀ e, e ≠ expected → Safe C Q (f (.error e)) (⟨op, .error e⟩ :: tr)) :
    Safe C Q (Prog.attempt op >>= f) tr := by
  refine Safe.attempt_bind hop fun r hr => ?_
  cases r with
  | ok a => exact hok a hr
  | error e =>
    by_cases he : e = expected
    · exact he ▸ herror
    · exact hother e he

theorem safe_createIfMissing {κ : ChildKind} {k : NamespacedName} {val : Child κ}
    {Q : Unit → History → Prop} (hop : C.allows tr (.create κ k val w))
    (hQ : ∀ r, r = .ok () ∨ r = .error .alreadyExists → Q () (⟨.create κ k val w, r⟩ :: tr)) :
    Safe C Q (createIfMissing κ k val w) tr :=
  safe_attempt .alreadyExists hop (fun _ _ => hQ (.ok ()) (.inl rfl)) (hQ _ (.inr rfl))
    fun e he => by cases e <;> trivial

theorem safe_deleteOldPod (hop : ∀ uid, C.allows tr (.deletePod uid)) (htr : P tr)
    (hP : ∀ uid r, P (⟨.deletePod uid, r⟩ :: tr)) (pod : Option Pod) :
    Safe C (fun _ tr' => P tr') (deleteOldPod pod) tr := by
  cases pod with
  | none => exact htr
  | some p =>
    simp only [deleteOldPod]
    split
    · exact safe_attempt .notFound (hop p.uid) (fun _ _ => hP _ _) (hP _ _)
        fun e he => by cases e <;> trivial
    · exact htr

theorem safe_missingPullSecret {ns : String} (hop : ∀ tr k, C.allows tr (.get .secret k))
    (hP : ∀ tr k r, P tr → P (⟨.get .secret k, r⟩ :: tr)) (refs : List String) (htr : P tr) :
    Safe C (fun _ tr' => P tr') (missingPullSecret ns refs) tr := by
  induction refs generalizing tr with
  | nil => exact htr
  | cons ref refs ih =>
    exact safe_attempt .notFound (hop _ _) (fun _ _ => ih (hP _ _ _ htr)) (hP _ _ _ htr)
      fun e he => by cases e <;> trivial

end Shared

end Kaalm.Controller

/-
  Controller/AgentPass.lean --- what an Agent pass does to its Agent and its
  children.

  The contract of an Agent pass and the proof that the reconciler keeps it, one
  lemma per function.  A function leaves all of the agent but its status alone
  (`Kept`) and only extends the history; what the pass has read stays read.  A
  write to the agent carries the resourceVersion of a version the pass knows
  (`KnownVersion`), so what the contract says of that version it says of the
  stored one whenever the write is accepted.
-/
import Kaalm.Controller.System

namespace Kaalm.Controller

open Kaalm.Foundation
open Kaalm.Gateway (Time)
open Prog (Safe)

/-! ## The contract -/

/-- The versions of its agent a pass knows to have been stored: the one it read,
and the one its status write made of it. -/
inductive KnownVersion (key : NamespacedName) (tr : History) : Agent → Prop
  | read (b : Agent) (h : ⟨.getAgent key, .ok b⟩ ∈ tr) : KnownVersion key tr b
  | written (b a : Agent) (rv : Nat) (h : ⟨.getAgent key, .ok b⟩ ∈ tr)
      (hwrite : ⟨.updateAgentStatus a, .ok rv⟩ ∈ tr) (hkey : a.key = key) (hrv : a.rv = b.rv) :
      KnownVersion key tr { b with status := a.status, rv := rv }

def AskedToWake (b : Agent) : Prop :=
  b.wake = true ∧ b.deletionTimestamp = none ∧ b.status.phase = .hibernated

def volumeKey (key : NamespacedName) : NamespacedName := ⟨key.ns, agentPVCName key.name⟩

/-- The pass has found the agent's volume missing or without the agent as owner,
or has made it so. -/
def Released (key : NamespacedName) (tr : History) : Prop :=
  (∃ cur : Stored .persistentVolumeClaim, cur.owner ≠ some (agentWorkload key) ∧
    ⟨.get .persistentVolumeClaim (volumeKey key), .ok cur⟩ ∈ tr) ∨
  ⟨.get .persistentVolumeClaim (volumeKey key), .error .notFound⟩ ∈ tr ∨
  ∃ obj : Stored .persistentVolumeClaim,
    ⟨.update .persistentVolumeClaim (volumeKey key) obj, .ok ()⟩ ∈ tr

/-- Whether an answer about the class is one that asks to keep the volume. -/
def asksRetain : Except ApiError AgentClass → Bool
  | .ok cls => cls.pvcRetention = "Retain"
  | .error _ => false

/-- The volume of an agent of the version `b` is dealt with: the class was asked
and did not say Retain, or the volume is released. -/
def VolumeSettled (key : NamespacedName) (tr : History) (b : Agent) : Prop :=
  (∃ r, asksRetain r = false ∧ ⟨.getClass b.spec.agentClassRef, r⟩ ∈ tr) ∨ Released key tr

/-- A metadata write over the version `b`. -/
structure MayWriteMeta (key : NamespacedName) (tr : History) (b a : Agent) : Prop where
  rv : a.rv = b.rv
  wake : a.wake = b.wake ∨ (b.deletionTimestamp = none ∧ b.status.phase ≠ .hibernated)
  finalizer : a.finalizer = true ∨
    (¬SawSelf (agentWorkload key) tr ∧ VolumeSettled key tr b)

/-- A status write over the version `b`: a wake request is answered by Resuming. -/
structure MayWriteStatusOf (b a : Agent) : Prop where
  rv : a.rv = b.rv
  phase : AskedToWake b → a.status.phase = .resuming

def agentAllows (cfg : Config) (key : NamespacedName) (tr : History) : Op → Prop
  | .getTask _ => False
  | .updateTask _ => False
  | .updateTaskStatus _ _ => False
  | .deleteTask _ => False
  | .getAgent k => k = key ∧ tr = []
  | .updateAgent a => a.key = key ∧ ∃ b, KnownVersion key tr b ∧ MayWriteMeta key tr b a
  | .updateAgentStatus a => a.key = key ∧ ∃ b, KnownVersion key tr b ∧ MayWriteStatusOf b a
  | .create κ k val owner =>
    owner = agentWorkload key ∧ MayCreate cfg (agentWorkload key) tr κ k val
  | .update κ k obj => MayUpdate cfg (agentWorkload key) tr κ k obj
  | .createPod tpl => MayCreatePod cfg (agentWorkload key) tr tpl
  | .listPods ns sel => ns = key.ns ∧ sel = agentPodLabels key.name
  | _ => True

def agentContract (cfg : Config) (key : NamespacedName) : Contract Op Ans ApiError where
  answers := honest
  allows := agentAllows cfg key

/-- The local copy is of a known version that carries no wake request. -/
structure Awake (key : NamespacedName) (tr : History) (a : Agent) : Prop where
  named : a.key = key
  known : ∃ b, KnownVersion key tr b ∧ a.rv = b.rv ∧ b.wake = false

/-- The local copy carries the name and the spec that were read, and the class of
that spec was read too. -/
structure Converges (key : NamespacedName) (tr : History) (a : Agent) (cls : AgentClass) :
    Prop extends Awake key tr a where
  read : ∃ a₀ : Agent, ⟨.getAgent key, .ok a₀⟩ ∈ tr ∧ a.spec = a₀.spec
  self : SawSelf (agentWorkload key) tr
  cls : ⟨.getClass a.spec.agentClassRef, .ok cls⟩ ∈ tr

def Kept (a a' : Agent) : Prop := ∃ status, a' = { a with status := status }

/-- The same agent up to its conditions, names and addresses. -/
structure Dressed (a a' : Agent) : Prop where
  kept : Kept a a'
  phase : a'.status.phase = a.status.phase
  active : a'.status.lastActivityTime = a.status.lastActivityTime
  turned : a'.status.phaseTransitionTime = a.status.phaseTransitionTime

variable {cfg : Config} {key : NamespacedName} {tr tr' : History} {a a' : Agent}
  {cls : AgentClass}

theorem Kept.refl (a : Agent) : Kept a a := ⟨_, rfl⟩

theorem Kept.trans {a₁ a₂ a₃ : Agent} (h : Kept a₁ a₂) (h' : Kept a₂ a₃) : Kept a₁ a₃ := by
  obtain ⟨_, rfl⟩ := h
  obtain ⟨_, rfl⟩ := h'
  exact ⟨_, rfl⟩

theorem Dressed.refl (a : Agent) : Dressed a a := ⟨.refl a, rfl, rfl, rfl⟩

theorem Dressed.status (h : Dressed a a') (ready degraded : Option Condition)
    (endpoint podName pvcName : String) :
    Dressed a { a' with
      status := { a'.status with
        ready := ready, degraded := degraded, endpoint := endpoint, podName := podName,
        pvcName := pvcName } } :=
  ⟨h.kept.trans ⟨_, rfl⟩, h.phase, h.active, h.turned⟩

theorem Dressed.ready (h : Dressed a a') (ok : Bool) (reason msg : String) :
    Dressed a (setReady a' ok reason msg) := h.status _ _ _ _ _

variable {b : Agent}

theorem KnownVersion.mono (hg : tr ⊆ tr') (h : KnownVersion key tr b) : KnownVersion key tr' b := by
  cases h with
  | read b h => exact .read b (hg h)
  | written b a rv h hwrite hkey hrv => exact .written b a rv (hg h) (hg hwrite) hkey hrv

theorem Awake.keep (h : Awake key tr a) (hk : Kept a a') (hg : tr <:+ tr') : Awake key tr' a' := by
  obtain ⟨_, rfl⟩ := hk
  obtain ⟨b, hb, hrest⟩ := h.known
  exact ⟨h.named, b, hb.mono hg.subset, hrest⟩

theorem Converges.keep (h : Converges key tr a cls) (hk : Kept a a') (hg : tr <:+ tr') :
    Converges key tr' a' cls := by
  have hawake := h.toAwake.keep hk hg
  obtain ⟨_, rfl⟩ := hk
  obtain ⟨a₀, hread, hspec⟩ := h.read
  exact ⟨hawake, ⟨a₀, hg.subset hread, hspec⟩, h.self.mono hg.subset, hg.subset h.cls⟩

theorem Converges.policyFor (h : Converges key tr a cls) :
    PolicyFor cfg (agentWorkload key) tr
      (desiredNetworkPolicy key.name cls (deriveEffectiveSpec a.spec cls)
        cfg.operatorNamespace) := by
  obtain ⟨a₀, hread, hspec⟩ := h.read
  exact ⟨a₀, cls, hread, by rw [← hspec]; exact h.cls, by rw [hspec]; rfl⟩

/-! ## Edits and status writes -/

theorem kept_movePhase (now : Time) (a : Agent) (phase : AgentPhase) :
    Kept a (movePhase now a phase) := by
  unfold movePhase
  split
  · exact .refl a
  · exact ⟨_, rfl⟩

theorem phase_movePhase (now : Time) (a : Agent) (phase : AgentPhase) :
    (movePhase now a phase).status.phase = phase := by
  unfold movePhase
  split
  · assumption
  · rfl

variable (phase : AgentPhase) (p : Pod)

theorem safe_setPhase :
    Safe (agentContract cfg key) (fun a' _ => Kept a a') (setPhase a phase) tr :=
  Safe.perform_bind trivial fun now _ => kept_movePhase now a phase

theorem safe_finalAgentStatus (h : Awake key tr a) :
    Safe (agentContract cfg key) done (updateAgentStatus a >>= fun _ => pure ()) tr := by
  obtain ⟨b, hb, hrv, hwake⟩ := h.known
  have hasked : ¬AskedToWake b := fun hx => by cases hwake.symm.trans hx.1
  refine Safe.bind (Q := done) (Safe.perform_bind ⟨h.named, b, hb, hrv, fun hx => ?_⟩
    fun _ _ => trivial) fun _ _ _ => trivial
  exact absurd hx hasked

theorem safe_finalWriteAgent (hkey : a.key = key) (hb : KnownVersion key tr b)
    (hmay : MayWriteMeta key tr b a) :
    Safe (agentContract cfg key) done (writeAgent a >>= fun _ => pure ()) tr :=
  Safe.perform_bind ⟨hkey, b, hb, hmay⟩ fun _ _ => trivial

variable {k : NamespacedName}

theorem safe_ownedPod {Q : Option Pod → History → Prop} (hk : k = key)
    (hQ : ∀ pods, Q (ownedPodIn (agentWorkload key) pods none)
      (⟨.listPods key.ns (agentPodLabels key.name), .ok pods⟩ :: tr)) :
    Safe (agentContract cfg key) Q (ownedPod k) tr := by
  subst hk
  exact Safe.perform_bind ⟨rfl, rfl⟩ fun pods _ => hQ pods

theorem safe_agentDeleteOldPod (pod : Option Pod) :
    Safe (agentContract cfg key) done (deleteOldPod pod) tr :=
  safe_deleteOldPod (fun _ => trivial) trivial (fun _ _ => trivial) pod

/-! ## Wake, hibernation, Degraded -/

/-- The copy of an agent that is not being deleted, as the pass observed it. -/
structure Observes (key : NamespacedName) (tr : History) (b a : Agent) : Prop where
  read : ⟨.getAgent key, .ok b⟩ ∈ tr
  named : b.key = key
  kept : Kept b a
  finalizer : b.finalizer = true
  deletion : b.deletionTimestamp = none
  phase : a.status.phase = .hibernated ↔ b.status.phase = .hibernated

theorem safe_handleWake (h : Observes key tr b a) :
    Safe (agentContract cfg key) done (handleWake a) tr := by
  simp only [handleWake]
  split
  · have hset : Safe (agentContract cfg key)
        (fun a' _ => Kept b a' ∧ a'.status.phase = .resuming) (setPhase a .resuming) tr :=
      Safe.perform_bind trivial fun now _ =>
        ⟨h.kept.trans (kept_movePhase _ _ _), phase_movePhase _ _ _⟩
    refine Safe.bind hset.grows ?_
    rintro _ tr₁ ⟨⟨⟨status, rfl⟩, hphase⟩, hg⟩
    have hread := hg.subset h.read
    refine Safe.perform_bind trivial fun now _ => ?_
    refine Safe.bind (Safe.perform_bind
      ⟨h.named, b, .read b (.tail _ hread), rfl, fun _ => hphase⟩ fun rv _ => ?_)
      fun a₂ tr₂ h₂ => h₂
    -- the version the status write made is Resuming, and the annotation goes from that one
    refine safe_finalWriteAgent h.named
      (.written b _ rv (.tail _ (.tail _ hread)) (.head _) h.named rfl) ⟨rfl, .inr ⟨h.deletion, ?_⟩,
        .inl h.finalizer⟩
    dsimp only [setReady] at hphase ⊢
    rw [hphase]
    decide
  · rename_i hphase
    have hasleep := mt h.phase.mpr hphase
    obtain ⟨_, rfl⟩ := h.kept
    exact safe_finalWriteAgent h.named (.read b h.read)
      ⟨rfl, .inr ⟨h.deletion, hasleep⟩, .inl h.finalizer⟩

theorem safe_driveHibernating (h : Awake key tr a) :
    Safe (agentContract cfg key) done (driveHibernating a) tr := by
  refine Safe.bind (safe_ownedPod (Q := done) h.named fun _ => trivial).grows
    fun pod tr₁ ⟨_, hg⟩ => ?_
  cases pod with
  | some p =>
    refine Safe.bind (safe_agentDeleteOldPod (some p)).grows fun _ tr₂ h₂ => ?_
    exact safe_finalAgentStatus (h.keep (.refl a) (hg.trans h₂.2))
  | none =>
    refine Safe.bind (safe_setPhase .hibernated).grows fun a₁ tr₂ h₁ => ?_
    refine Safe.perform_bind trivial fun now _ => ?_
    exact safe_finalAgentStatus
      (h.keep (h₁.1.trans ⟨_, rfl⟩) (hg.trans (h₁.2.trans (List.suffix_cons _ _))))

theorem safe_enterOrStayDegraded (v : Violation) (h : Awake key tr a) :
    Safe (agentContract cfg key) done (enterOrStayDegraded a v) tr := by
  refine Safe.perform_bind trivial fun now _ => ?_
  refine safe_finalAgentStatus (h.keep (Kept.trans ?_ ⟨_, rfl⟩) (List.suffix_cons _ _))
  split
  · exact .refl a
  · exact Kept.trans ⟨_, rfl⟩ (kept_movePhase now _ .degraded)

theorem safe_restoreFromDegraded (h : Awake key tr a) :
    Safe (agentContract cfg key) done (restoreFromDegraded a) tr :=
  Safe.bind (safe_setPhase _).grows fun _ _ h₁ =>
    safe_finalAgentStatus (h.keep (h₁.1.trans ⟨_, rfl⟩) h₁.2)

theorem safe_reconcileBudgetCondition :
    Safe (agentContract cfg key) (fun a' _ => Kept a a') (reconcileBudgetCondition a) tr :=
  Safe.perform_bind trivial fun _ _ => ⟨_, rfl⟩

/-! ## Gates -/

/-- A closed gate hands back the agent with a condition. -/
def Gate (a : Agent) (closed : Option Agent) (_ : History) : Prop :=
  ∀ a', closed = some a' → Dressed a a'

theorem Gate.opened (a : Agent) (tr : History) : Gate a none tr := fun _ hx => by cases hx

theorem Gate.closed (h : Dressed a a') : Gate a (some a') tr := fun _ hx => by cases hx; exact h

variable {κ : ChildKind} {eff : EffectiveAgentSpec}

section Gates

-- the gates only look objects up
variable {C : Contract Op Ans ApiError} (hget : ∀ tr κ k, C.allows tr (.get κ k))
include hget

theorem safe_requireChild {ns name : String} (h : Dressed a a') :
    Safe C (Gate a) (requireChild κ ns name a') tr :=
  safe_attempt .notFound (hget _ _ _) (fun _ _ => Gate.opened a _) (Gate.closed h)
    fun e he => by cases e <;> trivial

theorem safe_pullSecretGate (h : Dressed a a') : Safe C (Gate a) (pullSecretGate a' eff) tr := by
  refine Safe.bind (safe_missingPullSecret (P := fun _ => True) (fun tr => hget tr _)
    (fun _ _ _ _ => trivial) _ trivial) fun missing tr₁ _ => ?_
  cases missing with
  | some ref => exact Gate.closed (h.ready _ _ _)
  | none => exact Gate.opened a tr₁

theorem safe_handlerGate (h : Dressed a a') : Safe C (Gate a) (handlerGate a' eff) tr := by
  simp only [handlerGate]
  split
  · exact Gate.opened a tr
  · exact safe_requireChild hget (h.ready _ _ _)

theorem safe_claimGate (h : Dressed a a') : Safe C (Gate a) (claimGate a' eff) tr := by
  simp only [claimGate]
  split
  · exact safe_requireChild hget (h.ready _ _ _)
  · exact Gate.opened a tr

theorem safe_readyGates (h : Dressed a a') : Safe C (Gate a) (readyGates a' eff) tr := by
  simp only [readyGates]
  split
  · exact Gate.closed (h.ready _ _ _)
  · refine Safe.bind (safe_claimGate hget h) fun closed₁ tr₁ h₁ => ?_
    cases closed₁ with
    | some a₁ => exact h₁
    | none =>
      refine Safe.bind (safe_pullSecretGate hget h) fun closed₂ tr₂ h₂ => ?_
      cases closed₂ with
      | some a₂ => exact h₂
      | none => exact safe_handlerGate hget h

end Gates

/-! ## Children -/

theorem SawCertificate.mono {w : Workload} (hg : tr <:+ tr') (h : SawCertificate w tr) :
    SawCertificate w tr' := by
  obtain ⟨cert, hready, hm⟩ := h
  exact ⟨cert, hready, hg.subset hm⟩

theorem safe_ensureCertificate (hself : SawSelf (agentWorkload key) tr) :
    Safe (agentContract cfg key)
      (fun ready tr' => ready = true → SawCertificate (agentWorkload key) tr')
      (ensureCertificate key) tr := by
  refine safe_attempt .notFound trivial (fun cert _ hready => ⟨cert, hready, .head _⟩) ?_
    fun e he => by cases e <;> trivial
  refine Safe.attempt_bind ⟨rfl, rfl, rfl, hself.mono (List.subset_cons_self _ _)⟩ fun r _ => ?_
  cases r with
  | ok _ => exact fun hx => by cases hx
  | error e => trivial

theorem safe_createOrFail {Q : Unit → History → Prop} {val : Child κ}
    (hop : MayCreate cfg (agentWorkload key) tr κ k val)
    (hQ : Q () (⟨.create κ k val (agentWorkload key), .ok ()⟩ :: tr)) :
    Safe (agentContract cfg key) Q (createOrFail κ k val (agentWorkload key)) tr := by
  refine Safe.attempt_bind ⟨rfl, hop⟩ fun r _ => ?_
  cases r with
  | ok _ => exact hQ
  | error e => trivial

theorem safe_agentCreateIfMissing {val : Child κ}
    (hop : MayCreate cfg (agentWorkload key) tr κ k val) :
    Safe (agentContract cfg key) done (createIfMissing κ k val (agentWorkload key)) tr :=
  safe_createIfMissing ⟨rfl, hop⟩ fun _ _ => trivial

theorem safe_convergeService : Safe (agentContract cfg key) done (convergeService key eff) tr := by
  refine safe_attempt .notFound trivial (fun current _ => ?_) (safe_createOrFail trivial trivial)
    fun e he => by cases e <;> trivial
  dsimp only
  split
  · trivial
  · exact Prog.safe_perform.mpr ⟨trivial, fun _ _ => trivial⟩

theorem safe_ensureService (hkey : a.key = key) :
    Safe (agentContract cfg key) (fun a' _ => Kept a a') (ensureService a eff) tr := by
  subst hkey
  simp only [ensureService]
  split
  · exact Safe.bind safe_convergeService fun _ _ _ => ⟨_, rfl⟩
  · exact Kept.refl a

theorem safe_ensurePVC (hkey : a.key = key) (hself : SawSelf (agentWorkload key) tr) :
    Safe (agentContract cfg key) (fun a' _ => Kept a a') (ensurePVC a eff) tr := by
  subst hkey
  simp only [ensurePVC]
  split
  · exact Safe.bind (safe_agentCreateIfMissing hself) fun _ _ _ => ⟨_, rfl⟩
  · exact Kept.refl a

theorem safe_ensureNetworkPolicy (h : Converges key tr a cls) :
    Safe (agentContract cfg key) (fun _ tr' => SawPolicy cfg (agentWorkload key) tr')
      (ensureNetworkPolicy cfg key cls (deriveEffectiveSpec a.spec cls)) tr := by
  have hpolicy : ∀ o, PolicyFor cfg (agentWorkload key) (o :: tr) _ := fun o => h.policyFor.cons o
  have hself := fun o => h.self.mono (List.subset_cons_self o tr)
  refine safe_attempt .notFound trivial (fun current _ => ?_) ?_ fun e he => by cases e <;> trivial
  · refine Prog.safe_perform.mpr
      ⟨⟨rfl, rfl, hpolicy _, hself _, current, .head _, rfl⟩, fun _ _ => ?_⟩
    exact .inr (.inl ⟨_, (hpolicy _).cons _, .head _⟩)
  · exact safe_createOrFail ⟨rfl, hpolicy _, hself _⟩ (.inl ⟨_, (hpolicy _).cons _, .head _⟩)

theorem safe_ensureChildren (h : Converges key tr a cls) :
    Safe (agentContract cfg key)
      (fun a' tr' => Kept a a' ∧ SawPolicy cfg (agentWorkload key) tr')
      (ensureChildren cfg a cls (deriveEffectiveSpec a.spec cls)) tr := by
  simp only [ensureChildren, h.named]
  refine Safe.bind (Safe.grows (safe_agentCreateIfMissing trivial)) fun _ tr₁ h₁ => ?_
  have hc₁ := h.keep (.refl a) h₁.2
  refine Safe.bind (safe_ensureService h.named).grows fun a₂ tr₂ h₂ => ?_
  have hc₂ := hc₁.keep h₂.1 h₂.2
  refine Safe.bind (safe_ensurePVC hc₂.named hc₂.self).grows fun a₃ tr₃ h₃ => ?_
  have hkept : Kept a a₃ := h₂.1.trans h₃.1
  have hc₃ := hc₂.keep h₃.1 h₃.2
  have hspec : a.spec = a₃.spec := by obtain ⟨_, rfl⟩ := hkept; rfl
  rw [hspec]
  exact Safe.bind (safe_ensureNetworkPolicy hc₃) fun _ tr₄ h₄ => ⟨hkept, h₄⟩

/-! ## The Pod -/

theorem safe_deletePodOrFail :
    Safe (agentContract cfg key) done (deletePodOrFail p) tr := by
  refine Safe.attempt_bind trivial fun r _ => ?_
  cases r with
  | ok _ => trivial
  | error e => trivial

theorem safe_setPhaseThen (f : Agent → Agent) (hf : ∀ a, Kept a (f a)) :
    Safe (agentContract cfg key) (fun a' _ => Kept a a')
      (setPhase a phase >>= fun a' => pure (f a')) tr :=
  Safe.bind (safe_setPhase phase) fun a₁ _ h₁ => h₁.trans (hf a₁)

theorem safe_replacePod (f : Agent → Agent) (hf : ∀ a, Kept a (f a)) :
    Safe (agentContract cfg key) (fun a' _ => Kept a a')
      (setPhase a phase >>= fun a' => deletePodOrFail p >>= fun _ => pure (f a')) tr :=
  Safe.bind (safe_setPhase phase) fun a₁ _ h₁ =>
    Safe.bind (safe_deletePodOrFail p) fun _ _ _ => h₁.trans (hf a₁)

theorem keeps_setReady (ok : Bool) (reason msg : String) (a : Agent) :
    Kept a (setReady a ok reason msg) := ⟨_, rfl⟩

theorem safe_promote : Safe (agentContract cfg key) (fun a' _ => Kept a a') (promote a) tr := by
  simp only [promote]
  split
  · exact safe_setPhase .running
  · exact Kept.refl a

theorem safe_convergeLivePod :
    Safe (agentContract cfg key) (fun a' _ => Kept a a') (convergeLivePod cfg a eff p) tr := by
  simp only [convergeLivePod]
  split
  · exact safe_setPhaseThen .failed _ (keeps_setReady _ _ _)
  · split
    · exact safe_replacePod .provisioning p _ (keeps_setReady _ _ _)
    · have hnamed : Kept a { a with status := { a.status with podName := p.name } } := ⟨_, rfl⟩
      split
      · exact Safe.bind safe_promote fun a₁ _ h₁ =>
          (hnamed.trans h₁).trans (keeps_setReady _ _ _ a₁)
      · exact (safe_setPhaseThen .provisioning _ (keeps_setReady _ _ _)).mono
          fun _ _ => hnamed.trans

theorem safe_convergePod (h : Converges key tr a cls)
    (hcert : SawCertificate (agentWorkload key) tr)
    (hpolicy : SawPolicy cfg (agentWorkload key) tr) :
    Safe (agentContract cfg key) (fun a' _ => Kept a a') (convergePod cfg a eff) tr := by
  let o : List Pod → Observed := fun pods =>
    ⟨.listPods key.ns (agentPodLabels key.name), .ok pods⟩
  refine Safe.bind (safe_ownedPod (Q := fun pod tr' =>
    sawNoPod (agentWorkload key) tr' = pod.isNone ∧
    SawSelf (agentWorkload key) tr' ∧ SawCertificate (agentWorkload key) tr' ∧
    SawPolicy cfg (agentWorkload key) tr') h.named
    fun pods => ⟨rfl, h.self.mono (List.subset_cons_self _ _),
      hcert.cons (o pods), hpolicy.cons (o pods)⟩) fun pod tr₁ h₁ => ?_
  obtain ⟨hno, hself, hcert₁, hpolicy₁⟩ := h₁
  cases pod with
  | none =>
    simp only [provisionAgentPod, h.named]
    refine Safe.perform_bind
      ⟨rfl, rfl, ⟨_, rfl⟩, rfl, hself, hno.trans rfl, hcert₁, hpolicy₁⟩
      fun pod _ => ?_
    exact Safe.bind (safe_setPhase .provisioning) fun a₁ tr₂ hx => hx.trans ⟨_, rfl⟩
  | some p =>
    dsimp only
    split
    · exact safe_setPhaseThen .provisioning _ (keeps_setReady _ _ _)
    · split
      · exact safe_replacePod .provisioning p _ (keeps_setReady _ _ _)
      · exact safe_convergeLivePod p

/-! ## Deletion -/

theorem not_sawSelf_cons {o : Observed} (ho : ∀ k r, o ≠ ⟨.getAgent k, r⟩)
    (h : ¬SawSelf (agentWorkload key) tr) : ¬SawSelf (agentWorkload key) (o :: tr) := by
  rintro ⟨a₀, hm, ha₀⟩
  rcases List.mem_cons.mp hm with rfl | hm
  · exact ho _ _ rfl
  · exact h ⟨a₀, hm, ha₀⟩

/-- The copy of an agent whose deletion was requested. -/
structure Deletes (key : NamespacedName) (tr : History) (b a : Agent) : Prop where
  known : KnownVersion key tr b
  named : b.key = key
  kept : Kept b a
  unseen : ¬SawSelf (agentWorkload key) tr

theorem Deletes.cons {o : Observed} (h : Deletes key tr b a) (ho : ∀ k r, o ≠ ⟨.getAgent k, r⟩) :
    Deletes key (o :: tr) b a :=
  { h with
    known := h.known.mono (List.subset_cons_self _ _)
    unseen := not_sawSelf_cons ho h.unseen }

theorem safe_releaseVolume (h : Deletes key tr b a) :
    Safe (agentContract cfg key) (fun _ tr' => Deletes key tr' b a ∧ Released key tr')
      (releaseVolume key) tr := by
  have h₁ : ∀ r, Deletes key (⟨.get .persistentVolumeClaim (volumeKey key), r⟩ :: tr) b a :=
    fun r => h.cons (by simp)
  refine safe_attempt .notFound trivial (fun current _ => ?_) ⟨h₁ _, .inr (.inl (.head _))⟩
    fun e he => by cases e <;> trivial
  dsimp only
  split
  · exact Prog.safe_perform.mpr
      ⟨⟨rfl, rfl⟩, fun _ _ => ⟨(h₁ _).cons (by simp), .inr (.inr ⟨_, .head _⟩)⟩⟩
  · rename_i howner
    exact ⟨h₁ _, .inl ⟨current, howner, .head _⟩⟩

theorem safe_retainVolume (h : Deletes key tr b a) :
    Safe (agentContract cfg key) (fun _ tr' => Deletes key tr' b a ∧ VolumeSettled key tr' b)
      (retainVolume a) tr := by
  obtain ⟨hkey, hspec⟩ : a.key = key ∧ a.spec = b.spec := by
    obtain ⟨_, rfl⟩ := h.kept
    exact ⟨h.named, rfl⟩
  simp only [retainVolume, hkey, retention, hspec]
  refine Safe.bind (Q := fun kept tr' => Deletes key tr' b a ∧
    (kept ≠ "Retain" → VolumeSettled key tr' b)) ?_ fun kept tr₁ h₁ => ?_
  · refine Safe.attempt_bind trivial fun r _ => ?_
    have h₁ : Deletes key (⟨.getClass b.spec.agentClassRef, r⟩ :: tr) b a := h.cons (by simp)
    cases r with
    | ok c =>
      refine ⟨h₁, fun hkept => .inl ⟨.ok c, ?_, .head _⟩⟩
      simp only [asksRetain, decide_eq_false_iff_not]
      rintro hc
      exact hkept (by simp [hc])
    | error e => exact ⟨h₁, fun _ => .inl ⟨.error e, rfl, .head _⟩⟩
  · split
    · exact (safe_releaseVolume h₁.1).mono fun _ _ hx => ⟨hx.1, .inr hx.2⟩
    · rename_i hkept
      exact ⟨h₁.1, h₁.2 hkept⟩

theorem safe_finalizeAgent (h : Deletes key tr b a) :
    Safe (agentContract cfg key) done (finalizeAgent a) tr := by
  obtain ⟨_, rfl⟩ := h.kept
  refine Safe.bind (safe_ownedPod (Q := fun _ tr' => Deletes key tr' b _) h.named
    fun pods => h.cons (by simp)) fun pod tr₁ h₁ => ?_
  cases pod with
  | some p => exact safe_agentDeleteOldPod (some p)
  | none =>
    refine Safe.bind (safe_retainVolume h₁) fun _ tr₂ h₂ => ?_
    exact safe_finalWriteAgent h.named h₂.1.known ⟨rfl, .inl rfl, .inr ⟨h₂.1.unseen, h₂.2⟩⟩

theorem safe_reconcileAgentDelete (hread : ⟨.getAgent key, .ok b⟩ ∈ tr)
    (hdel : b.deletionTimestamp.isSome = true) (h : Deletes key tr b a) :
    Safe (agentContract cfg key) done (reconcileAgentDelete a) tr := by
  simp only [reconcileAgentDelete]
  split
  · split
    · exact safe_finalizeAgent h
    · refine Safe.bind (Q := fun a' tr' => ⟨.getAgent key, .ok b⟩ ∈ tr' ∧ Deletes key tr' b a')
        (Safe.perform_bind trivial fun now _ => ⟨.tail _ hread, { h.cons (by simp) with
          kept := (h.kept.trans ⟨_, rfl⟩).trans (kept_movePhase _ _ _) }⟩) fun a₁ tr₁ h₁ => ?_
      obtain ⟨hread₁, h₁⟩ := h₁
      obtain ⟨status, rfl⟩ := h₁.kept
      have hasked : ¬AskedToWake b := fun hx => by rw [hx.2.1] at hdel; cases hdel
      refine Safe.bind (Safe.perform_bind
        ⟨h.named, b, .read b hread₁, rfl, fun hx => absurd hx hasked⟩ fun rv _ => ?_)
        fun a₂ tr₂ h₂ => h₂
      exact safe_finalizeAgent ⟨.written b _ rv (.tail _ hread₁) (.head _) h.named rfl, h.named,
        .refl _, not_sawSelf_cons (by simp) h₁.unseen⟩
  · trivial

/-! ## The pass -/

def reachableOf : Except ApiError (List ReplicaActivity × Nat) → List ReplicaActivity
  | .error _ => []
  | .ok answer => answer.1

def AgentStatus.turned (s : AgentStatus) (phase : AgentPhase) (now : Time)
    (active : Option Time) : AgentStatus :=
  { s with phase := phase, phaseTransitionTime := some (metaTime now), lastActivityTime := active }

inductive Judged (eff : EffectiveAgentSpec) (now : Time) (reachable : List ReplicaActivity)
    (a : Agent) : Agent → Prop
  | stay (g : Option Condition) :
    Judged eff now reachable a { a with status := { a.status with gatewayReachable := g } }
  | idle (g : Option Condition) (last : Time) (synthetic : Bool)
      (hmarker : silenceMarker a eff now reachable = some (last, synthetic))
      (hphase : a.status.phase = .running)
      (hlong : eff.idleTimeout < now - max last (a.status.lastActivityTime.getD last)) :
    Judged eff now reachable a { a with
      status := { a.status with gatewayReachable := g }.turned .idle now
        (some (metaTime (max last (a.status.lastActivityTime.getD last)))) }
  | back (g : Option Condition) (last : Time)
      (hmarker : silenceMarker a eff now reachable = some (last, false))
      (hphase : a.status.phase = .idle) (hfresh : freshActivity a last false = true) :
    Judged eff now reachable a { a with
      status := { a.status with gatewayReachable := g }.turned .running now
        (some (metaTime last)) }
  | hibernating (g : Option Condition) (last : Time) (synthetic : Bool)
      (hmarker : silenceMarker a eff now reachable = some (last, synthetic))
      (hphase : a.status.phase = .idle) (henabled : eff.hibernationEnabled = true)
      (hlong : eff.idleTimeout + eff.hibernationDelay < now - silenceStart a last synthetic) :
    Judged eff now reachable a { a with
      status := { a.status with gatewayReachable := g }.turned .hibernating now
        a.status.lastActivityTime }

theorem judged_evaluateActivity (a : Agent) (eff : EffectiveAgentSpec) (now : Time)
    (answer : Except ApiError (List ReplicaActivity × Nat)) :
    Judged eff now (reachableOf answer) a (evaluateActivity a eff now answer) := by
  cases answer with
  | error e => exact .stay _
  | ok answer =>
    obtain ⟨reachable, total⟩ := answer
    simp only [evaluateActivity]
    split
    · exact .stay _
    · split
      · exact .stay _
      · next last synthetic hmarker =>
        split
        · next hphase =>
          simp only [evaluateRunning]
          split
          · next hlong =>
            rw [movePhase, if_neg (by rw [hphase]; decide)]
            exact .idle _ last synthetic hmarker hphase hlong
          · exact .stay _
        · next hphase =>
          simp only [evaluateIdle]
          split
          · next hfresh =>
            obtain rfl : synthetic = false := by
              cases synthetic with
              | false => rfl
              | true => simp only [freshActivity] at hfresh; split at hfresh <;> cases hfresh
            rw [movePhase, if_neg (by rw [hphase]; decide)]
            exact .back _ last hmarker hphase hfresh
          · split
            · next hlong =>
              rw [movePhase, if_neg (by rw [hphase]; decide)]
              exact .hibernating _ last synthetic hmarker hphase hlong.1 hlong.2
            · exact .stay _
        · exact .stay _

theorem Judged.kept {now : Time} {reachable : List ReplicaActivity}
    (h : Judged eff now reachable a a') : Kept a a' := by
  cases h <;> exact ⟨_, rfl⟩

theorem safe_leavePending :
    Safe (agentContract cfg key) (fun a' _ => Kept a a') (leavePending a) tr := by
  simp only [leavePending]
  split
  · exact safe_setPhase .provisioning
  · exact Kept.refl a

theorem safe_convergeAgent (h : Converges key tr a cls) :
    Safe (agentContract cfg key) done
      (convergeAgent cfg a cls (deriveEffectiveSpec a.spec cls)) tr := by
  simp only [convergeAgent, h.named]
  refine Safe.bind (safe_ensureCertificate h.self).grows fun ready tr₁ h₁ => ?_
  split
  · rename_i hready
    have hc₁ := h.keep (.refl a) h₁.2
    refine Safe.bind (safe_ensureChildren hc₁).grows fun a₂ tr₂ h₂ => ?_
    have hc₂ := hc₁.keep h₂.1.1 h₂.2
    refine Safe.bind (safe_convergePod hc₂ ((h₁.1 hready).mono h₂.2) h₂.1.2).grows
      fun a₃ tr₃ h₃ => ?_
    have hc₃ := hc₂.toAwake.keep h₃.1 h₃.2
    split
    · refine Safe.perform_bind trivial fun now _ => ?_
      refine Safe.attempt_bind trivial fun answer _ => ?_
      exact safe_finalAgentStatus (hc₃.keep (judged_evaluateActivity a₃ _ now answer).kept
        ((List.suffix_cons _ _).trans (List.suffix_cons _ _)))
    · exact safe_finalAgentStatus hc₃
  · refine Safe.bind safe_leavePending.grows fun a₂ tr₂ h₂ => ?_
    exact safe_finalAgentStatus (h.toAwake.keep (h₂.1.trans ⟨_, rfl⟩) (h₁.2.trans h₂.2))

theorem safe_reconcileHealthy (h : Converges key tr a cls) :
    Safe (agentContract cfg key) done
      (reconcileHealthy cfg a cls (deriveEffectiveSpec a.spec cls)) tr := by
  refine Safe.bind safe_reconcileBudgetCondition.grows fun a₁ tr₁ h₁ => ?_
  have hc := h.keep h₁.1 h₁.2
  split
  · exact safe_driveHibernating hc.toAwake
  · exact safe_finalAgentStatus hc.toAwake
  · refine Safe.bind (safe_readyGates (fun _ _ _ => trivial) (.refl a₁)).grows
      fun closed tr₂ h₂ => ?_
    cases closed with
    | some a₂ => exact safe_finalAgentStatus (hc.toAwake.keep (h₂.1 a₂ rfl).kept h₂.2)
    | none =>
      obtain ⟨_, rfl⟩ := h₁.1
      exact safe_convergeAgent (hc.keep (.refl _) h₂.2)

theorem safe_reconcileAwake (h : Awake key tr a)
    (hread : ∃ a₀ : Agent, ⟨.getAgent key, .ok a₀⟩ ∈ tr ∧ a.spec = a₀.spec)
    (hself : SawSelf (agentWorkload key) tr) :
    Safe (agentContract cfg key) done (reconcileAwake cfg a) tr := by
  simp only [reconcileAwake]
  split
  · exact safe_finalAgentStatus (h.keep ⟨_, rfl⟩ (List.suffix_refl _))
  · refine safe_attempt .notFound trivial (fun cls _ => ?_)
      (safe_finalAgentStatus (h.keep ⟨_, rfl⟩ (List.suffix_cons _ _)))
      fun e he => by cases e <;> trivial
    · refine Safe.perform_bind trivial fun vs _ => ?_
      have h₁ : Awake key (⟨.violations (agentWorkload a.key), .ok vs⟩ ::
          ⟨.getClass a.spec.agentClassRef, .ok cls⟩ :: tr) a :=
        h.keep (.refl a) ((List.suffix_cons _ _).trans (List.suffix_cons _ _))
      cases vs with
      | cons v vs => exact safe_enterOrStayDegraded v h₁
      | nil =>
        dsimp only
        split
        · exact safe_restoreFromDegraded h₁
        · obtain ⟨a₀, hm, hspec⟩ := hread
          exact safe_reconcileHealthy
            ⟨h₁, ⟨a₀, .tail _ (.tail _ hm), hspec⟩,
              hself.mono fun _ hx => .tail _ (.tail _ hx), .tail _ (.head _)⟩

theorem safe_observeAgent :
    Safe (agentContract cfg key)
      (fun a' _ => Kept a a' ∧ (a'.status.phase = .hibernated ↔ a.status.phase = .hibernated))
      (observeAgent a) tr := by
  simp only [observeAgent]
  split
  · rename_i hunset
    refine Safe.perform_bind trivial fun now _ => ⟨kept_movePhase _ _ _, ?_⟩
    rw [phase_movePhase, hunset]
    decide
  · exact ⟨⟨_, rfl⟩, Iff.rfl⟩

/-- A pass of the Agent reconciler does only what its contract lists. -/
theorem safe_reconcileAgent (cfg : Config) (key : NamespacedName) :
    Safe (agentContract cfg key) done (reconcileAgent cfg key) [] := by
  refine Safe.attempt_bind ⟨rfl, rfl⟩ fun r hr => ?_
  cases r with
  | error e => cases e <;> trivial
  | ok a =>
    have hkey : a.key = key := hr
    have hread : (⟨.getAgent key, .ok a⟩ : Observed) ∈ [⟨.getAgent key, .ok a⟩] := .head _
    dsimp only
    split
    · rename_i hdel
      refine safe_reconcileAgentDelete hread hdel
        ⟨.read a hread, hkey, .refl a, ?_⟩
      rintro ⟨a₀, hm, ha₀⟩
      cases List.mem_singleton.mp hm
      simp [ha₀.2] at hdel
    · rename_i hdel
      have hdel' : a.deletionTimestamp = none := by simpa using hdel
      split
      · rename_i hfin
        refine Safe.bind safe_observeAgent.grows fun a₁ tr₁ h₁ => ?_
        obtain ⟨⟨⟨status, rfl⟩, hphase⟩, hg⟩ := h₁
        have hread₁ := hg.subset hread
        split
        · exact safe_handleWake ⟨hread₁, hkey, ⟨status, rfl⟩, hfin, hdel', hphase⟩
        · rename_i hasleep
          exact safe_reconcileAwake
            ⟨hkey, a, .read a hread₁, rfl, by simpa using hasleep⟩
            ⟨a, hread₁, rfl⟩ ⟨a, hread₁, hfin, hdel'⟩
      · exact safe_finalWriteAgent hkey (.read a hread) ⟨rfl, .inl rfl, .inl rfl⟩

end Kaalm.Controller

/-
  Controller/Activity.lean --- an Agent without traffic.

  `Judged` lists what a reading of the replicas' activity does to an Agent.  Under
  fixed records a transition never makes one of them look fresh again: the time stored
  on the way to Idle is not before the record it was read from, at the resolution of
  stored times, and the synthetic marker is never fresh.  `reconcileHealthy_quiet` ties
  `quietPass` to the reconciler: it is what a pass stores while the Pod is Ready.
-/
import Kaalm.Controller.Lineage

namespace Kaalm.Controller

open Kaalm.Foundation
open Kaalm.Gateway (Time Duration second)
open Prog (Safe)

variable {eff : EffectiveAgentSpec} {now last : Time} {reachable : List ReplicaActivity}
  {a a' : Agent}

/-- The activity part of a pass over an agent whose Pod stays Ready: the Pod's
convergence leaves Running and Idle alone, and an agent on its way to sleep waits for
its Pod to go. -/
def quietPass (eff : EffectiveAgentSpec) (answer : Except ApiError (List ReplicaActivity × Nat))
    (a : Agent) (now : Time) : Agent :=
  if (a.status.phase = .running ∨ a.status.phase = .idle) ∧ eff.idleTimeout > 0 then
    evaluateActivity a eff now answer
  else a

variable {answer : Except ApiError (List ReplicaActivity × Nat)}

/-! ## The pass -/

/-- A Pod that a pass leaves alone. -/
structure ReadyPod (cfg : Config) (eff : EffectiveAgentSpec) (pod : Pod) : Prop where
  live : pod.deletionTimestamp.isSome = false
  active : pod.phase.terminal = false
  calm : crashLooping pod = none
  current : pod.specHash = some (podSpecHash cfg eff)
  ready : pod.ready = true

/-- The Pod is Ready, and the replicas always answer alike. -/
def quietAnswers (cfg : Config) (eff : EffectiveAgentSpec)
    (answer : Except ApiError (List ReplicaActivity × Nat)) (key : NamespacedName) : Observed → Prop
  | ⟨.listPods _ _, .ok pods⟩ =>
    ∃ pod, ownedPodIn (agentWorkload key) pods none = some pod ∧ ReadyPod cfg eff pod
  | ⟨.activity _, r⟩ => r = answer
  | _ => True

/-- What is stored is the agent that was read, or what `quietPass` makes of it. -/
def quietAllows (eff : EffectiveAgentSpec)
    (answer : Except ApiError (List ReplicaActivity × Nat)) (a : Agent) : Op → Prop
  | .updateAgentStatus a' =>
    ∃ b, Dressed a b ∧ (a' = b ∨ ∃ now, a' = quietPass eff answer b now)
  | _ => True

def quietContract (cfg : Config) (eff : EffectiveAgentSpec)
    (answer : Except ApiError (List ReplicaActivity × Nat)) (a : Agent) :
    Contract Op Ans ApiError where
  answers := quietAnswers cfg eff answer a.key
  allows _ := quietAllows eff answer a

variable {cfg : Config} {cls : AgentClass} {tr : History}

theorem quiet_updateAgentStatus (h : quietAllows eff answer a (.updateAgentStatus a')) :
    Safe (quietContract cfg eff answer a) done (updateAgentStatus a' >>= fun _ => pure ()) tr :=
  Safe.bind (Q := done) (Safe.perform_bind h fun _ _ => trivial) fun _ _ _ => trivial

theorem quiet_ownedPod (h : Dressed a a') :
    Safe (quietContract cfg eff answer a) (fun pod _ => ∃ p, pod = some p ∧ ReadyPod cfg eff p)
      (ownedPod a'.key) tr := by
  obtain ⟨_, rfl⟩ := h.kept
  exact Safe.perform_bind trivial fun _ hpods => hpods

theorem quiet_createOrFail {κ : ChildKind} {k : NamespacedName} {val : Child κ} {w : Workload} :
    Safe (quietContract cfg eff answer a) done (createOrFail κ k val w) tr := by
  refine Safe.attempt_bind trivial fun r _ => ?_
  cases r with
  | ok _ => trivial
  | error e => trivial

theorem quiet_convergeService :
    Safe (quietContract cfg eff answer a) done (convergeService a'.key eff) tr := by
  refine safe_attempt .notFound trivial (fun current _ => ?_) quiet_createOrFail
    fun e he => by cases e <;> trivial
  dsimp only
  split
  · trivial
  · exact Prog.safe_perform.mpr ⟨trivial, fun _ _ => trivial⟩

theorem quiet_ensureNetworkPolicy :
    Safe (quietContract cfg eff answer a) done (ensureNetworkPolicy cfg a'.key cls eff) tr :=
  safe_attempt .notFound trivial (fun _ _ => Prog.safe_perform.mpr ⟨trivial, fun _ _ => trivial⟩)
    quiet_createOrFail fun e he => by cases e <;> trivial

theorem quiet_ensureChildren (h : Dressed a a') :
    Safe (quietContract cfg eff answer a) (fun a₁ _ => Dressed a a₁)
      (ensureChildren cfg a' cls eff) tr := by
  have hcreate : ∀ {κ k val w tr}, Safe (quietContract cfg eff answer a) done
      (createIfMissing κ k val w) tr := safe_createIfMissing trivial fun _ _ => trivial
  simp only [ensureChildren, ensureService, ensurePVC]
  refine Safe.bind hcreate fun _ tr₁ _ => ?_
  refine Safe.bind (Q := fun a₁ _ => Dressed a a₁) ?_ fun a₁ tr₂ h₁ => ?_
  · split
    · exact Safe.bind quiet_convergeService fun _ _ _ => h.status _ _ _ _ _
    · exact h
  refine Safe.bind (Q := fun a₁ _ => Dressed a a₁) ?_ fun a₂ tr₃ h₂ => ?_
  · split
    · exact Safe.bind hcreate fun _ _ _ => h₁.status _ _ _ _ _
    · exact h₁
  exact Safe.bind quiet_ensureNetworkPolicy fun _ _ _ => h₂

theorem quiet_convergePod (h : Dressed a a')
    (hphase : a.status.phase = .running ∨ a.status.phase = .idle) :
    Safe (quietContract cfg eff answer a) (fun a₁ _ => Dressed a a₁)
      (convergePod cfg a' eff) tr := by
  refine Safe.bind (quiet_ownedPod h) ?_
  rintro _ tr₁ ⟨p, rfl, hp⟩
  have hnamed := h.status a'.status.ready a'.status.degraded a'.status.endpoint p.name
    a'.status.pvcName
  simp only [convergeLivePod, hp.live, hp.active, hp.calm, hp.current, hp.ready, promote,
    Bool.false_eq_true, if_false, if_true, ne_eq, not_true_eq_false]
  split
  · next hidle =>
    have hrun : a'.status.phase = .running :=
      hphase.elim h.phase.trans fun hx => absurd (h.phase.trans hx) hidle
    refine Safe.bind (Q := fun a₁ _ => Dressed a a₁) (Safe.perform_bind trivial fun now _ => ?_)
      fun a₁ _ h₁ => h₁.ready _ _ _
    simp only [movePhase, if_pos hrun]
    exact hnamed
  · exact hnamed.ready _ _ _

theorem quiet_convergeAgent (h : Dressed a a')
    (hphase : a.status.phase = .running ∨ a.status.phase = .idle) :
    Safe (quietContract cfg eff answer a) done (convergeAgent cfg a' cls eff) tr := by
  have hcert : Safe (quietContract cfg eff answer a) done (ensureCertificate a'.key) tr := by
    refine safe_attempt .notFound trivial (fun _ _ => trivial) ?_ fun e he => by cases e <;> trivial
    refine Safe.attempt_bind trivial fun r _ => ?_
    cases r with
    | ok _ => trivial
    | error e => trivial
  unfold convergeAgent
  refine Safe.bind hcert fun ready tr₁ _ => ?_
  split
  · refine Safe.bind (quiet_ensureChildren h) fun a₁ tr₂ h₁ => ?_
    refine Safe.bind (quiet_convergePod h₁ hphase) fun a₂ tr₃ h₂ => ?_
    split
    · next hturn =>
      refine Safe.perform_bind trivial fun now _ => Safe.attempt_bind trivial fun r hr => ?_
      obtain rfl : r = answer := hr
      refine quiet_updateAgentStatus ⟨a₂, h₂, .inr ⟨now, ?_⟩⟩
      rw [quietPass, if_pos ⟨hturn.1, hturn.2.1⟩]
    · exact quiet_updateAgentStatus ⟨a₂, h₂, .inl rfl⟩
  · -- only a Pending agent changes its phase before its certificate is there
    have hpending : a'.status.phase ≠ .pending := by
      rw [h.phase]
      rintro hx
      simp [hx] at hphase
    rw [leavePending, if_neg hpending]
    exact quiet_updateAgentStatus ⟨_, h.ready _ _ _, .inl rfl⟩

/-- A pass over an agent that runs, idles or goes to sleep while its Pod is Ready stores
what `quietPass` gives, or the activity it read. -/
theorem reconcileHealthy_quiet (a : Agent)
    (h : a.status.phase = .running ∨ a.status.phase = .idle ∨ a.status.phase = .hibernating) :
    Safe (quietContract cfg eff answer a) done (reconcileHealthy cfg a cls eff) [] := by
  refine Safe.bind (Q := fun a₁ _ => Dressed a a₁)
    (Safe.perform_bind trivial fun _ _ => (Dressed.refl a).status _ _ _ _ _) fun a₁ tr h₁ => ?_
  split
  · refine Safe.bind (quiet_ownedPod h₁) ?_
    rintro _ tr₁ ⟨p, rfl, -⟩
    refine Safe.bind (safe_deleteOldPod (P := fun _ => True) (fun _ => trivial) trivial
      (fun _ _ => trivial) (some p)) fun _ _ _ => ?_
    exact quiet_updateAgentStatus ⟨a₁, h₁, .inl rfl⟩
  · exact quiet_updateAgentStatus ⟨a₁, h₁, .inl rfl⟩
  · next hasleep _ =>
    have hphase : a.status.phase = .running ∨ a.status.phase = .idle :=
      or_assoc.mpr h |>.resolve_right fun hx => hasleep (h₁.phase.trans hx)
    refine Safe.bind (safe_readyGates (fun _ _ _ => trivial) h₁) fun closed tr₂ h₂ => ?_
    cases closed with
    | some a₂ => exact quiet_updateAgentStatus ⟨a₂, h₂ a₂ rfl, .inl rfl⟩
    | none => exact quiet_convergeAgent h₁ hphase

/-! ## Phases -/

theorem metaTime_mono {t t' : Time} (h : t ≤ t') : metaTime t ≤ metaTime t' := by
  simp only [metaTime, second, Time] at *
  omega

/-- Running, Idle on silence that no record breaks, or asleep. -/
def Settled (eff : EffectiveAgentSpec) (reachable : List ReplicaActivity) (a : Agent) : Prop :=
  a.status.phase = .running ∨ a.status.phase = .hibernating ∨ a.status.phase = .idle ∧
    ∀ last, mergedActivity reachable a.key.name eff.activitySource = some last →
      freshActivity a last false = false

theorem Judged.settled (h : Judged eff now reachable a a') (hs : Settled eff reachable a) :
    Settled eff reachable a' ∧ (a.status.phase ≠ .running → a'.status.phase ≠ .running) ∧
      (a.status.phase = .hibernating → a'.status.phase = .hibernating) := by
  cases h with
  | stay g => exact ⟨hs, id, id⟩
  | idle g last synthetic hmarker hphase hlong =>
    refine ⟨.inr (.inr ⟨rfl, fun t ht => ?_⟩), fun hrun => absurd hphase hrun,
      fun hasleep => by cases hphase.symm.trans hasleep⟩
    obtain rfl : t = last := by
      simp only [silenceMarker, ht, Option.some.injEq, Prod.mk.injEq] at hmarker
      exact hmarker.1
    simpa [freshActivity, AgentStatus.turned] using metaTime_mono (le_max_left t _)
  | back g last hmarker hphase hfresh =>
    have hmerged : mergedActivity reachable a.key.name eff.activitySource = some last := by
      simp only [silenceMarker] at hmarker
      split at hmarker <;> simp_all
    obtain hrun | hasleep | ⟨-, hstale⟩ := hs
    · cases hphase.symm.trans hrun
    · cases hphase.symm.trans hasleep
    · cases (hstale last hmerged).symm.trans hfresh
  | hibernating => exact ⟨.inr (.inl rfl), fun _ => by simp [AgentStatus.turned], fun _ => rfl⟩

theorem quietPass_settled (now : Time) (hs : Settled eff (reachableOf answer) a) :
    Settled eff (reachableOf answer) (quietPass eff answer a now) ∧
      (a.status.phase ≠ .running → (quietPass eff answer a now).status.phase ≠ .running) ∧
      (a.status.phase = .hibernating →
        (quietPass eff answer a now).status.phase = .hibernating) := by
  unfold quietPass
  split_ifs
  · exact (judged_evaluateActivity a eff now answer).settled hs
  · exact ⟨hs, id, id⟩

theorem quiet_phases (times : List Time) (hs : Settled eff (reachableOf answer) a) :
    ∃ m n k, (times.scanl (quietPass eff answer) a).map (·.status.phase) =
        List.replicate m .running ++ (List.replicate n .idle ++ List.replicate k .hibernating) ∧
      (a.status.phase ≠ .running → m = 0) ∧ (a.status.phase = .hibernating → n = 0) := by
  induction times generalizing a with
  | nil =>
    obtain h | h | ⟨h, -⟩ := hs
    · exact ⟨1, 0, 0, by simp [h], by simp [h], by simp⟩
    · exact ⟨0, 0, 1, by simp [h], by simp, by simp⟩
    · exact ⟨0, 1, 0, by simp [h], by simp, by simp [h]⟩
  | cons now times ih =>
    rw [List.scanl_cons, List.map_cons]
    obtain ⟨hnext, hrun, hasleep⟩ := quietPass_settled now hs
    obtain ⟨m, n, k, hrest, hm, hn⟩ := ih hnext
    rw [hrest]
    cases hphase : a.status.phase with
    | running => exact ⟨m + 1, n, k, rfl, by simp, by simp⟩
    | idle =>
      obtain rfl := hm (hrun (by simp [hphase]))
      exact ⟨0, n + 1, k, rfl, by simp, by simp⟩
    | hibernating =>
      obtain rfl := hm (hrun (by simp [hphase]))
      obtain rfl := hn (hasleep hphase)
      exact ⟨0, 0, k + 1, rfl, by simp, by simp⟩
    | _ => simp [Settled, hphase] at hs

/-- Without new records a Running agent goes to Idle and to Hibernating, once each. -/
theorem quiet_phases_forward (eff : EffectiveAgentSpec)
    (answer : Except ApiError (List ReplicaActivity × Nat)) (a : Agent) (times : List Time)
    (h : a.status.phase = .running) :
    ∃ m n k, (times.scanl (quietPass eff answer) a).map (·.status.phase) =
      List.replicate m .running ++ (List.replicate n .idle ++ List.replicate k .hibernating) := by
  have hs : Settled eff (reachableOf answer) a := .inl h
  obtain ⟨m, n, k, hphases, -⟩ := quiet_phases times hs
  exact ⟨m, n, k, hphases⟩

def hastyKey : NamespacedName := ⟨"team", "hasty"⟩

def hastySpec : AgentSpec :=
  { (plainAgent hastyKey).spec with
    idleTimeout := 600 * second, hibernationDelay := -480 * second, hibernationEnabled := true }

/-- Three passes within the hour, over a replica that has no record of the agent. -/
def hastyPasses : List Agent :=
  [1, 2400 * second, 3600 * second].scanl
    (quietPass (deriveEffectiveSpec hastySpec plainClass) (.ok ([⟨0, ∅⟩], 1)))
    (movePhase 0 (plainAgent hastyKey) .running)

theorem quiet_phases_forward_hasty :
    hastyPasses.map (·.status.phase) = [.running, .running, .idle, .hibernating] ∧
      ∃ m n k, hastyPasses.map (·.status.phase) =
        List.replicate m .running ++ (List.replicate n .idle ++ List.replicate k .hibernating) :=
  ⟨by decide +kernel, quiet_phases_forward _ _ _ _ rfl⟩

end Kaalm.Controller

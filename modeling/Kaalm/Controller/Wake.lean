/-
  Controller/Wake.lean --- a wake request on a hibernated Agent is not dropped.

  The request is an annotation, the answer a phase, and the API server writes the
  two separately.  `handleWake` commits Resuming first and takes the annotation
  away afterwards; every other write of the annotation is made over a version
  that is not Hibernated.  Both are facts about the version a pass has read, and
  by `agent_after_exec` they are facts about the stored one.

  An Agent whose deletion was requested keeps the annotation until it is gone.
-/
import Kaalm.Controller.Versions

namespace Kaalm.Controller

open Kaalm.Foundation

/-- The request stands: the annotation is there, and the agent sleeps, is on its
way up, or is on its way out. -/
def Requested (a : Agent) : Prop :=
  a.wake = true ∧
    (a.status.phase = .hibernated ∨ a.status.phase = .resuming ∨
      a.deletionTimestamp.isSome = true)

def Resumes (key : NamespacedName) (s : Cluster) : Prop :=
  ∃ a, s.agents key = some a ∧ a.status.phase = .resuming

section Steps

variable {key : NamespacedName} {tr : History} {a a' : Agent} {s s' : Cluster} {e : EnvEvent}

theorem Requested.move (h : Requested a) (hnot : a.status.phase ≠ .resuming)
    (hmove : AgentMove key tr a (some a')) : Requested a' := by
  generalize hx : some a' = x at hmove
  cases hmove with
  | keep => cases hx; exact h
  | status u rv _ hmay =>
    cases hx
    refine ⟨h.1, ?_⟩
    cases hdel : a.deletionTimestamp with
    | some t => exact .inr (.inr rfl)
    | none =>
      rcases h.2 with hsleeps | hup | hout
      · exact .inr (.inl (hmay.phase ⟨h.1, hdel, hsleeps⟩))
      · exact absurd hup hnot
      · rw [hdel] at hout
        cases hout
  | metadata u rv _ hmay =>
    obtain rfl := eq_of_unlessReleased hx.symm
    refine ⟨?_, h.2⟩
    rcases hmay.wake with hkeep | ⟨hdel, hphase⟩
    · exact hkeep.trans h.1
    · rcases h.2 with hsleeps | hup | hout
      · exact absurd hsleeps hphase
      · exact absurd hup hnot
      · rw [hdel] at hout
        cases hout

theorem EnvEffect.requested (h : EnvEffect s e s') (ha' : s'.agents key = some a') :
    ∃ a, s.agents key = some a ∧ (Requested a → Requested a') := by
  rcases h.agents.of_some ha' with hold | ⟨a, ha, -, rfl | rfl | ⟨spec, -, rfl⟩⟩
  · exact ⟨a', hold, id⟩
  · refine ⟨a, ha, fun hreq => ⟨hreq.1, .inr (.inr ?_)⟩⟩
    cases a.deletionTimestamp <;> rfl
  · exact ⟨a, ha, fun hreq => ⟨rfl, hreq.2⟩⟩
  · exact ⟨a, ha, id⟩

end Steps

section Runs

variable {cfg : Config} {W : Type} [DecidableEq W] {workload : W → Workload} {s₀ : Cluster}
  {key : NamespacedName}

/-- The pool is sound, and the stored agent, if it is still there, carries the
request. -/
structure Pending (cfg : Config) (workload : W → Workload) (s₀ : Cluster) (key : NamespacedName)
    (σ : Pool Watched W Op Ans ApiError) : Prop where
  sound : PoolSpec.Sound (fun w => contract cfg (workload w)) (Versioned s₀)
    (fun w => Recollects (workload w)) σ
  requested : ∀ a, σ.world.cluster.agents key = some a → Requested a

theorem Pending.step {σ σ' : Pool Watched W Op Ans ApiError}
    {e : PoolEvent W CacheChoice EnvEvent} (h : Pending cfg workload s₀ key σ)
    (hnot : ¬Resumes key σ.world.cluster)
    (hst : (cachedSystem cfg workload).step σ e = some σ') : Pending cfg workload s₀ key σ' := by
  refine ⟨(cached_proof cfg workload s₀).step_sound h.sound trivial hst, fun a' ha' => ?_⟩
  rcases (cachedSystem cfg workload).step_world hst with
    hsame | ⟨w, c, tr, op, r, rfl, hp⟩ | ⟨x, rfl, hx⟩
  · rw [hsame] at ha'
    exact h.requested a' ha'
  · have hs := served_of_executeCached hp.result
    obtain ⟨hallow, hknows⟩ := h.sound.admits hp
    obtain ⟨a, ha⟩ : ∃ a, σ.world.cluster.agents key = some a := by
      generalize σ'.world = s' at hs ha'
      cases hs with
      | live hx => exact ((execute_effect hx).agent ha').imp fun _ h => h.1
      | cached | unseen => exact ⟨a', ha'⟩
    have hreq := h.requested a ha
    rcases agent_after_exec h.sound.inv hknows hallow hs ha with hsame | ⟨-, hmove⟩
    · obtain rfl : a' = a := Option.some.inj (ha'.symm.trans hsame)
      exact hreq
    · rw [ha'] at hmove
      exact hreq.move (fun hx => hnot ⟨a, ha, hx⟩) hmove
  · obtain ⟨t, ht, hworld⟩ := Option.map_eq_some_iff.mp hx
    rw [← hworld] at ha'
    obtain ⟨a, ha, hkeep⟩ := (envStep_effect ht).requested ha'
    exact hkeep (h.requested a ha)

/-- A wake request on a hibernated Agent is not dropped: along every run, whatever
the caches show and whichever writes fail, conflict or go unanswered, once a stored
Agent is Hibernated with the annotation, a step leaves it without the annotation
only after Resuming has been stored. -/
theorem wake_removed_after_resuming (cfg : Config) (workload : W → Workload) {s₀ : Cluster}
    (hkeyed : Keyed s₀) {es₀ es : List (PoolEvent W CacheChoice EnvEvent)}
    {σ σ₁ σ₂ : Pool Watched W Op Ans ApiError} {e : PoolEvent W CacheChoice EnvEvent}
    {key : NamespacedName} {a a₂ : Agent}
    (hrun : Run (cachedSystem cfg workload).step anyStep (PoolSpec.idle (Watched.start s₀)) es₀ σ)
    (hstored : σ.world.cluster.agents key = some a) (hphase : a.status.phase = .hibernated)
    (hwake : a.wake = true) (hlater : Run (cachedSystem cfg workload).step anyStep σ es σ₁)
    (hstep : (cachedSystem cfg workload).step σ₁ e = some σ₂)
    (hstored₂ : σ₂.world.cluster.agents key = some a₂) (hgone : a₂.wake = false) :
    ∃ es₁ es₂ mid, es = es₁ ++ es₂ ∧ Run (cachedSystem cfg workload).step anyStep σ es₁ mid ∧
      Run (cachedSystem cfg workload).step anyStep mid es₂ σ₁ ∧
      Resumes key mid.world.cluster := by
  have hsound := (cached_proof cfg workload s₀).run (hrun.weaken fun _ _ _ => trivial)
    (PoolSpec.sound_idle hkeyed.versioned)
  have hstart : Pending cfg workload s₀ key σ := by
    refine ⟨hsound, fun b hb => ?_⟩
    obtain rfl : b = a := Option.some.inj (hb.symm.trans hstored)
    exact ⟨hwake, .inl hphase⟩
  rcases hlater.keeps_until (P := fun σ => Resumes key σ.world.cluster)
    (fun _ _ _ h hnot _ hst => h.step hnot hst) hstart with hpending | hmet
  · by_cases hup : Resumes key σ₁.world.cluster
    · exact ⟨es, [], σ₁, (List.append_nil es).symm, hlater, .nil σ₁, hup⟩
    · have hreq := (hpending.step hup hstep).requested a₂ hstored₂
      cases hgone.symm.trans hreq.1
  · exact hmet

end Runs

/-! ## A wake through a lagging cache -/

/-- The state an execution of the cached system leads to. -/
def cachedAfter (σ : Pool Watched Workload Op Ans ApiError)
    (es : List (PoolEvent Workload CacheChoice EnvEvent)) : Pool Watched Workload Op Ans ApiError :=
  (exec (cachedSystem plainConfig id).step σ es).getD σ

def sleeperKey : NamespacedName := ⟨"team", "sleeper"⟩

def sleeper : Agent :=
  { plainAgent sleeperKey with
    finalizer := true
    status := { (plainAgent sleeperKey).status with phase := .hibernated } }

def wakeAsked : Pool Watched Workload Op Ans ApiError :=
  cachedAfter (PoolSpec.idle (Watched.start (plainCluster [sleeper] [])))
    [.env (.wakeAgent sleeperKey)]

/-- A pass reads the version from before the patch and crashes; the next one wakes
the agent, up to the write of the annotation. -/
def wakingEvents : List (PoolEvent Workload CacheChoice EnvEvent) :=
  [.start (agentWorkload sleeperKey), .exec (agentWorkload sleeperKey) (.cached 1),
    .crash (agentWorkload sleeperKey), .start (agentWorkload sleeperKey)] ++
    List.replicate 4 (.exec (agentWorkload sleeperKey) (.live .ok))

/-- The write that takes the annotation away. -/
def wakeAnswered : PoolEvent Workload CacheChoice EnvEvent :=
  .exec (agentWorkload sleeperKey) (.live .ok)

theorem wake_removed_after_resuming_sleeper :
    ∃ es₁ es₂ mid, wakingEvents = es₁ ++ es₂ ∧
      Run (cachedSystem plainConfig id).step anyStep wakeAsked es₁ mid ∧
      Run (cachedSystem plainConfig id).step anyStep mid es₂
        (cachedAfter wakeAsked wakingEvents) ∧
      Resumes sleeperKey mid.world.cluster := by
  have hbefore : (wakeAsked.world.cluster.agents sleeperKey).any
      (fun a => a.status.phase = .hibernated ∧ a.wake = true) = true := by decide +kernel
  have hafter :
      ((cachedAfter (cachedAfter wakeAsked wakingEvents) [wakeAnswered]).world.cluster.agents
      sleeperKey).any (fun a => a.wake = false) = true := by decide +kernel
  obtain ⟨a, ha, hasked⟩ := (Option.any_eq_true _ _).mp hbefore
  obtain ⟨a₂, ha₂, hgone⟩ := (Option.any_eq_true _ _).mp hafter
  have hkeyed : Keyed (plainCluster [sleeper] []) :=
    keyed_plainCluster (by simp [sleeper, plainAgent])
  have hphase := of_decide_eq_true hasked
  have hlast : exec (cachedSystem plainConfig id).step (cachedAfter wakeAsked wakingEvents)
      [wakeAnswered] = some (cachedAfter (cachedAfter wakeAsked wakingEvents) [wakeAnswered]) :=
    exec_eq_some_getD _ (by decide +kernel)
  have hstart : Run (cachedSystem plainConfig id).step anyStep
      (PoolSpec.idle (Watched.start (plainCluster [sleeper] []))) [.env (.wakeAgent sleeperKey)]
      wakeAsked := run_any (by decide +kernel)
  exact wake_removed_after_resuming plainConfig id hkeyed hstart ha hphase.1 hphase.2
    (run_any (by decide +kernel))
    ((exec_singleton _ _ _).symm.trans hlast) ha₂ (of_decide_eq_true hgone)

end Kaalm.Controller

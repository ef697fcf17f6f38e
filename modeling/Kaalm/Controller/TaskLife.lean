/-
  Controller/TaskLife.lean --- the life of an AgentTask over whole runs.

  In every state a run reaches, with any crashes, conflicts and Pods, the stored
  status of a task is `Lawful`: its retries are within the limit, and its
  completion time, its phase and its Completed condition agree.
-/
import Kaalm.Controller.Finished

namespace Kaalm.Controller

open Kaalm.Foundation

/-! ## One write -/

/-- What a stored status satisfies. -/
structure TaskCore.Lawful (spec : AgentTaskSpec) (c : TaskCore) : Prop where
  bounded : (c.retries : Int) ≤ max 0 spec.backoffLimit
  /-- only Failed can be of a settled task or of one between the writes of a retry -/
  timed : c.phase = .failed ∨ c.completionTime.isSome = isTerminalTaskPhase c.phase
  flagged : c.completed = none ↔ c.completionTime = none
  outcome : c.phase ≠ .terminating → c.completionTime ≠ none →
    c.completed = some (decide (c.phase = .succeeded))

section Moves

variable {spec : AgentTaskSpec} {key : NamespacedName} {tr : History} {c c' : TaskCore}
  {cause : Option Cause}

theorem TaskCore.Lawful.time (h : c.Lawful spec) (hphase : isTerminalTaskPhase c.phase = false) :
    c.completionTime = none := by
  rcases h.timed with hfailed | hsome
  · rw [hfailed] at hphase; cases hphase
  · rwa [hphase, Option.isSome_eq_false_iff, Option.isNone_iff_eq_none] at hsome

theorem TaskCore.lawful_of_open (hbounded : (c.retries : Int) ≤ max 0 spec.backoffLimit)
    (htime : c.completionTime = none) (hflag : c.completed = none ↔ c.completionTime = none)
    (hphase : c.phase = .failed ∨ isTerminalTaskPhase c.phase = false) : c.Lawful spec :=
  ⟨hbounded, hphase.imp_right fun hlive => by rw [htime, hlive]; rfl, hflag,
    fun _ h => absurd htime h⟩

theorem TaskMove.succeeded (h : TaskMove spec key tr c c' cause) (hc : c.phase ≠ .succeeded)
    (hc' : c'.phase = .succeeded) :
    c.phase = .completing ∧ AttemptSucceeded spec key tr c c'.artifactValues cause := by
  cases h with
  | refresh | stamp => exact absurd hc' hc
  | succeed _ _ _ _ hphase hev => exact ⟨hphase, hev⟩
  | _ => cases hc'

variable (h : TaskMove spec key tr c c' cause)
  (hpassed : Orderly key tr) (hlaw : c.Lawful spec)
include h hpassed hlaw

theorem TaskMove.lawful : c'.Lawful spec := by
  have hb := hlaw.bounded
  cases h with
  | refresh => exact hlaw
  | resume _ hint => exact TaskCore.lawful_of_open hb hint.2 hlaw.flagged (.inr rfl)
  | expire _ _ htime =>
    exact ⟨hb, .inr (Option.isSome_iff_ne_none.mpr htime), hlaw.flagged, fun h => absurd rfl h⟩
  | reject | giveUp => exact ⟨hb, .inl rfl, iff_of_false nofun nofun, fun _ _ => rfl⟩
  | succeed | timeout => exact ⟨hb, .inr rfl, iff_of_false nofun nofun, fun _ _ => rfl⟩
  | await _ hp | created _ _ _ hp | start _ _ _ hp =>
    have htime := hlaw.time (active_of_provisioning hp)
    exact TaskCore.lawful_of_open hb htime hlaw.flagged (.inr rfl)
  | stamp => exact ⟨hb, hlaw.timed, hlaw.flagged, hlaw.outcome⟩
  | complete _ _ he =>
    have htime : c.completionTime = none := by
      rcases he.active with hp | hrun
      · exact hlaw.time (active_of_provisioning hp)
      · exact hlaw.time (by rw [hrun]; rfl)
    exact TaskCore.lawful_of_open hb htime hlaw.flagged (.inr rfl)
  | retry _ _ hf hlimit =>
    have htime := hlaw.time hf.active
    refine TaskCore.lawful_of_open ?_ htime hlaw.flagged (.inl rfl)
    show ((c.retries + 1 : Nat) : Int) ≤ _
    omega
  | reopen c₀ hlive hfrom =>
    have htime := hpassed c₀ hfrom hlive
    exact TaskCore.lawful_of_open hb htime hlaw.flagged (.inr rfl)

/-- A settled task moves on to Terminating only, a broken-off retry to Provisioning only. -/
theorem TaskMove.onward :
    (c.completionTime ≠ none → c' = { c with phase := .terminating }) ∧
      (c.interrupted → c' = { c with phase := .provisioning }) := by
  obtain ⟨hactive, -⟩ | ⟨heq, -, htime⟩ | ⟨-, heq, hfrom⟩ := h.starts
  · refine ⟨fun htime => absurd (hlaw.time hactive) htime, fun hint => ?_⟩
    rw [hint.1] at hactive
    cases hactive
  · exact ⟨fun _ => heq, fun hint => absurd hint.2 htime⟩
  · refine ⟨fun htime => absurd ?_ htime, fun _ => heq⟩
    obtain ⟨hnone, -⟩ | ⟨c₀, rfl, hlive, hpass, -⟩ := hfrom
    · exact hnone
    · exact hpassed c₀ hpass hlive

end Moves

/-! ## Whole runs -/

def LawfulTasks (s : Cluster) : Prop := ∀ k t, s.tasks k = some t → t.status.core.Lawful t.spec

variable {cfg : Config} {s₀ s s' : Cluster} {σ σ' : State} {es : List Event}
  {k : NamespacedName} {t t' : AgentTask}

theorem LawfulTasks.step (h : LawfulTasks s) (hstep : ∀ k, TaskStep (Orderly ·.key) s s' k) :
    LawfulTasks s' := by
  intro k t' ht'
  obtain hleaves | ⟨tr, t, u, cause, hpassed, hw⟩ := hstep k
  · obtain ⟨t, ht, hspec, hstatus⟩ := hleaves.task t' ht'
    rw [hspec, hstatus]
    exact h k t ht
  · obtain rfl := hw.task ht'
    exact hw.move.lawful hpassed (h k t hw.stored)

theorem lawful_proof (cfg : Config) (s₀ : Cluster) :
    (system cfg).Proof (contract cfg) (fun s => Lineage s₀ s ∧ LawfulTasks s)
      (fun w tr s => Recalls s₀ w tr s ∧ Orderly w.key tr) anyStep := by
  refine (lineage_proof cfg s₀).extend (fun _ _ h => h) ?_ ?_ ?_
  · rintro w s - - core ⟨tr₀, hsuffix, hbase⟩
    rw [List.suffix_nil.mp hsuffix] at hbase
    cases hbase
  · intro σ w c tr op r s' hline hlaw hrec hpassed _ hallow hp _
    have hlaw' := hlaw.step (hrec.step hline (execute_effect hp.result) hallow fun _ => hpassed)
    exact ⟨hlaw', hpassed.cons (fun k t ht => (hlaw' k t ht).time) hp.result,
      fun _ _ _ _ _ h => h⟩
  · intro σ e s' _ hlaw _ he
    exact ⟨hlaw.step fun k => .inl ((envStep_effect he).leaves k), fun _ _ _ _ h => h⟩

/-- A pool that a run from a fresh store can reach. -/
abbrev Lived (cfg : Config) (s₀ : Cluster) (σ : State) : Prop :=
  PoolSpec.Sound (contract cfg) (fun s => Lineage s₀ s ∧ LawfulTasks s)
    (fun w tr s => Recalls s₀ w tr s ∧ Orderly w.key tr) σ

theorem Fresh.lived (hfresh : Fresh s₀)
    (hrun : Run (system cfg).step anyStep (PoolSpec.idle s₀) es σ) : Lived cfg s₀ σ := by
  refine (lawful_proof cfg s₀).run hrun (PoolSpec.sound_idle ⟨hfresh.lineage, fun k t ht => ?_⟩)
  rw [hfresh.taskStatus k t ht]
  exact TaskCore.lawful_of_open (le_max_left 0 _) rfl (iff_of_true rfl rfl)
    (.inr rfl)

theorem Lived.step {e : Event} (hσ : Lived cfg s₀ σ) (hst : (system cfg).step σ e = some σ')
    (k : NamespacedName) :
    TaskStep (fun w tr => Orderly w.key tr ∧ ∃ rest, σ.passes w = some ⟨tr, rest⟩)
      σ.world σ'.world k := by
  obtain hsame | ⟨w, c, tr, op, r, -, hp⟩ | ⟨x, -, he⟩ := (system cfg).step_world hst
  · rw [hsame]
    exact .inl ⟨fun t' ht' => ⟨t', ht', rfl, rfl⟩, fun _ _ => .rfl⟩
  · obtain ⟨hallow, hrec, hpassed⟩ := hσ.admits hp
    obtain ⟨next, hpass⟩ := hp.pass
    exact hrec.step hσ.inv.1 (execute_effect hp.result) hallow (fun _ => ⟨hpassed, _, hpass⟩) k
  · exact .inl ((envStep_effect he).leaves k)

section Reached

variable (cfg : Config) (hfresh : Fresh s₀)
  (hrun : Run (system cfg).step anyStep (PoolSpec.idle s₀) es σ) (ht : σ.world.tasks k = some t)
include hfresh hrun ht

/-- Every stored status is lawful, in every state of every run. -/
theorem task_status_lawful : t.status.core.Lawful t.spec :=
  (hfresh.lived hrun).inv.2 k t ht

theorem task_status_moves {e : Event} (hst : (system cfg).step σ e = some σ')
    (ht' : σ'.world.tasks k = some t') :
    t'.status = t.status ∨
      (t.status.completionTime ≠ none →
        t'.status.core = { t.status.core with phase := .terminating }) ∧
      (t.status.core.interrupted →
        t'.status.core = { t.status.core with phase := .provisioning }) ∧
      (t.status.core.phase ≠ .succeeded → t'.status.core.phase = .succeeded →
        t.status.core.phase = .completing ∧ ∃ tr rest cause,
          σ.passes (taskWorkload k) = some ⟨tr, rest⟩ ∧
          AttemptSucceeded t.spec k tr t.status.core t'.status.artifactValues cause) := by
  have hlived := hfresh.lived hrun
  obtain hleaves | ⟨tr, u, u', cause, ⟨hpassed, rest, hpass⟩, hw⟩ := hlived.step hst k
  · obtain ⟨u, hu, -, hstatus⟩ := hleaves.task t' ht'
    obtain rfl : t = u := Option.some.inj (ht.symm.trans hu)
    exact .inl hstatus
  · obtain rfl : t = u := Option.some.inj (ht.symm.trans hw.stored)
    obtain rfl := hw.task ht'
    obtain ⟨hfinal, hresume⟩ := hw.move.onward hpassed (hlived.inv.2 k t ht)
    refine .inr ⟨hfinal, hresume, fun hbefore hafter => ?_⟩
    obtain ⟨hphase, hev⟩ := hw.move.succeeded hbefore hafter
    exact ⟨hphase, tr, rest, cause, hpass, hev⟩

end Reached

theorem task_status_lawful_soloCluster : ∃ t,
    (reached plainConfig soloCluster succeededEvents).world.tasks soloKey = some t ∧
      t.status.core.Lawful t.spec := by
  obtain ⟨t, ht⟩ := Option.isSome_iff_exists.mp (show ((reached plainConfig soloCluster
    succeededEvents).world.tasks soloKey).isSome = true by decide +kernel)
  exact ⟨t, ht, task_status_lawful plainConfig fresh_soloCluster (run_any (by decide +kernel)) ht⟩

/-- The pass that heeds a report, up to the write that settles the task, and that write. -/
theorem task_status_moves_soloCluster :
    ∃ (σ : State) (t : AgentTask) (values : GoMap String String),
      t.status.core.phase = .completing ∧ ∃ tr rest cause,
        σ.passes (taskWorkload soloKey) = some ⟨tr, rest⟩ ∧
        AttemptSucceeded t.spec soloKey tr t.status.core values cause := by
  obtain ⟨σ, σ', hrun, hst, h⟩ := exists_step_of_exec
    (show (exec (system plainConfig).step (PoolSpec.idle soloCluster)
      (succeededEvents ++ passEvents (taskWorkload soloKey) 7)).any (fun σ =>
        ((system plainConfig).step σ (.exec (taskWorkload soloKey) .ok)).any fun σ' =>
          (σ.world.tasks soloKey).any (·.status.core.phase ≠ .succeeded) &&
            (σ'.world.tasks soloKey).any (·.status.core.phase = .succeeded)) = true by
      decide +kernel)
  obtain ⟨hbefore, hafter⟩ := Bool.and_eq_true_iff.mp h
  obtain ⟨t, ht, hbefore⟩ := (Option.any_eq_true _ _).mp hbefore
  obtain ⟨t', ht', hafter⟩ := (Option.any_eq_true _ _).mp hafter
  have hbefore := of_decide_eq_true hbefore
  have hafter := of_decide_eq_true hafter
  obtain hsame | ⟨-, -, hev⟩ := task_status_moves plainConfig fresh_soloCluster hrun ht hst ht'
  · exact absurd (hsame ▸ hafter) hbefore
  · exact ⟨σ, t, _, hev hbefore hafter⟩

end Kaalm.Controller

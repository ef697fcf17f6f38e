/-
  Controller/Attempts.lean --- attempts, Pods and retries of a task.

  GHOST RECORDS.  `created` holds every Pod ever created, with the value of
  `status.retries` it was created under; whatever list a pass is given, however
  old, shows Pods of that record.

  RETRIES.  A retry is counted in a pass that works with the Pod of the current
  attempt, unless the pass was handed a Pod of an earlier one while the task was
  Pending or Provisioning.  The reconciler then takes the old Pod, still
  terminating, for the new one: it stamps it, promotes it, or fails it again.
-/
import Kaalm.Controller.SinglePod

namespace Kaalm.Controller

open Kaalm.Foundation

/-! ## Pods and their records -/

/-- Every Pod of every list there ever was is on record, and a uid is given once. -/
structure Minted (s : Cluster) : Prop where
  known : ∀ v ∈ s.views, ∀ p ∈ v.pods,
    ∃ q ∈ s.created, q.toPodTemplate = p.toPodTemplate ∧ q.uid = p.uid
  below : ∀ q ∈ s.created, q.uid < s.nextUID
  unique : ∀ q ∈ s.created, ∀ q' ∈ s.created, q.uid = q'.uid → q = q'

structure Sees (w : Workload) (tr : History) (s : Cluster) : Prop where
  listed : ∀ c p, (taskView w.key tr).listed = some (c, some p) →
    p.owner = taskWorkload w.key ∧
      ∃ q ∈ s.created, q.toPodTemplate = p.toPodTemplate ∧ q.uid = p.uid
  made : ∀ tpl p, ⟨.createPod tpl, .ok p⟩ ∈ tr → p.toPodTemplate = tpl ∧ p ∈ s.created

variable {cfg : Config} {s s' : Cluster} {w : Workload} {tr : History} {op : Op} {c : Choice}
  {e : EnvEvent}

theorem Effect.created_subset (h : Effect s op s') : s.created ⊆ s'.created := by
  obtain ⟨-, hsame⟩ | ⟨tpl, -, rfl⟩ | ⟨-, hsame⟩ := h.pods
  · rw [hsame]; exact fun _ h => h
  · exact List.subset_append_left _ _
  · rw [hsame]; exact fun _ h => h

theorem EnvEffect.created_subset (h : EnvEffect s e s') : s.created ⊆ s'.created := by
  rw [h.pods_move.2]
  exact fun _ h => h

theorem Effect.nextUID (h : Effect s op s') (hop : ∀ tpl, op ≠ .createPod tpl) :
    s'.nextUID = s.nextUID := by
  cases h with
  | createPod tpl => exact absurd rfl (hop tpl)
  | _ => rfl

theorem EnvEffect.nextUID (h : EnvEffect s e s') : s'.nextUID = s.nextUID := by
  cases h with
  | patch i c h =>
    simp only [landPatch]
    split
    · rfl
    · rfl
  | _ => rfl

theorem Minted.move (h : Minted s) (hcreated : s'.created = s.created)
    (huid : s'.nextUID = s.nextUID) (hmove : PodsMove s.pods s'.pods)
    (hviews : ∀ {v}, v ∈ s'.views → v = s'.toView ∨ v ∈ s.views) :
    Minted s' where
  known v hv p' hp' := by
    rw [hcreated]
    rcases hviews hv with rfl | hold
    · obtain ⟨p, hp, htemplate, hsame, -⟩ := hmove.mem hp'
      obtain ⟨q, hq, hqt, hqu⟩ := h.known s.toView (.head _) p hp
      exact ⟨q, hq, hqt.trans htemplate.symm, hqu.trans hsame.symm⟩
    · exact h.known v hold p' hp'
  below := by rw [hcreated, huid]; exact h.below
  unique := by rw [hcreated]; exact h.unique

theorem Minted.addPod (h : Minted s) (tpl : PodTemplate) : Minted (s.addPod tpl) where
  known v hv p hp := by
    have hkeep : ∀ v ∈ s.views, ∀ p ∈ v.pods, ∃ q ∈ (s.addPod tpl).created,
        q.toPodTemplate = p.toPodTemplate ∧ q.uid = p.uid := by
      intro v hv p hp
      obtain ⟨q, hq, hrest⟩ := h.known v hv p hp
      exact ⟨q, List.mem_append_left _ hq, hrest⟩
    rcases (Effect.createPod tpl : Effect s _ _).views hv with rfl | hold
    · rcases List.mem_append.mp hp with hold | hnew
      · exact hkeep s.toView (.head _) p hold
      · exact ⟨p, List.mem_append_right _ hnew, rfl, rfl⟩
    · exact hkeep v hold p hp
  below q hq := by
    rcases List.mem_append.mp hq with hold | hnew
    · exact (h.below q hold).trans (Nat.lt_succ_self _)
    · rw [List.mem_singleton.mp hnew]
      exact Nat.lt_succ_self _
  unique q hq q' hq' huid := by
    rcases List.mem_append.mp hq with hold | hnew <;>
      rcases List.mem_append.mp hq' with hold' | hnew'
    · exact h.unique q hold q' hold' huid
    · rw [List.mem_singleton.mp hnew'] at huid
      exact absurd huid (Nat.ne_of_lt (h.below q hold))
    · rw [List.mem_singleton.mp hnew] at huid
      exact absurd huid.symm (Nat.ne_of_lt (h.below q' hold'))
    · rw [List.mem_singleton.mp hnew, List.mem_singleton.mp hnew']

theorem Minted.exec (h : Minted s) (heff : Effect s op s') : Minted s' := by
  by_cases hop : ∃ tpl, op = .createPod tpl
  · obtain ⟨tpl, rfl⟩ := hop
    cases heff with
    | skip => exact h
    | createPod => exact h.addPod tpl
  · have hop' : ∀ tpl, op ≠ .createPod tpl := fun tpl heq => hop ⟨tpl, heq⟩
    obtain ⟨hsame, hcreated⟩ | ⟨tpl, heq, -⟩ | ⟨hmove, hcreated⟩ := heff.pods
    · exact h.move hcreated (heff.nextUID hop') (by rw [hsame]; exact podsMove_refl _)
        heff.views
    · exact absurd heq (hop' tpl)
    · exact h.move hcreated (heff.nextUID hop') hmove heff.views

theorem Minted.env (h : Minted s) (heff : EnvEffect s e s') : Minted s' := by
  obtain ⟨hmove, hcreated⟩ := heff.pods_move
  exact h.move hcreated heff.nextUID hmove heff.views

theorem execute_listPods {ns : String} {selector : Labels} {pods : List Pod}
    (h : execute (.listPods ns selector) c s = some (.ok pods, s')) :
    s' = s ∧ ∃ v ∈ s.views, ∀ p ∈ pods, p ∈ v.pods := by
  cases c with
  | ok =>
    cases h
    exact ⟨rfl, s.toView, .head _, fun p hp => List.mem_of_mem_filter hp⟩
  | listed lag pods' =>
    simp only [execute, answerList] at h
    split at h
    · next hperm =>
      cases h
      exact ⟨rfl, s.viewAt lag, viewAt_mem s lag, fun p hp =>
        List.mem_of_mem_filter ((List.isPerm_iff.mp hperm).mem_iff.mpr hp)⟩
    · cases h
  | failed | lost | stale | violations | blockedProviders | activity => cases h

theorem Sees.mono (h : Sees w tr s) (hsub : s.created ⊆ s'.created) : Sees w tr s' where
  listed core p hl := by
    obtain ⟨howner, q, hq, hrest⟩ := h.listed core p hl
    exact ⟨howner, q, hsub hq, hrest⟩
  made tpl p hp := ⟨(h.made tpl p hp).1, hsub (h.made tpl p hp).2⟩

theorem TaskView.note_listed (key : NamespacedName) (v : TaskView) (o : Observed) :
    (v.note key o).listed = v.listed ∨
      ∃ ns selector pods core, o = ⟨.listPods ns selector, .ok pods⟩ ∧ v.listed = none ∧
        v.base = some core ∧
        (v.note key o).listed = some (core, ownedPodIn (taskWorkload key) pods none) := by
  have hnoted := v.noted key o
  generalize v.note key o = v' at hnoted ⊢
  cases hnoted with
  | listed ns selector pods =>
    cases hl : v.listed with
    | some x => exact .inl rfl
    | none =>
      cases hb : v.base with
      | none => exact .inl rfl
      | some core => exact .inr ⟨ns, selector, pods, core, rfl, rfl, rfl, rfl⟩
  | _ => exact .inl rfl

theorem Sees.cons (h : Sees w tr s) (hminted : Minted s) {r : Except ApiError (Ans op)}
    (hex : execute op c s = some (r, s')) : Sees w (⟨op, r⟩ :: tr) s' := by
  have hsub := (execute_effect hex).created_subset
  constructor
  · intro core p hl
    rcases TaskView.note_listed w.key (taskView w.key tr) ⟨op, r⟩ with
      hsame | ⟨ns, selector, pods, core', heq, -, -, hnew⟩
    · exact (h.mono hsub).listed core p (hsame.symm.trans hl)
    · cases heq
      obtain ⟨rfl, l, hmem, hin⟩ := execute_listPods hex
      have hpick : ownedPodIn (taskWorkload w.key) pods none = some p := by
        have := hnew.symm.trans hl
        simp only [Option.some.injEq, Prod.mk.injEq] at this
        exact this.2
      rcases mem_of_ownedPodIn _ pods none p hpick with hnone | ⟨hp, howner⟩
      · cases hnone
      · exact ⟨howner, hminted.known l hmem p (hin p hp)⟩
  · intro tpl p hp
    rcases List.mem_cons.mp hp with heq | hold
    · cases heq
      obtain ⟨rfl, rfl⟩ := execute_createPod hex
      exact ⟨rfl, List.mem_append_right _ (.head _)⟩
    · exact (h.mono hsub).made tpl p hold

theorem minted_proof (cfg : Config) (s₀ : Cluster) :
    (system cfg).Proof (contract cfg) (fun s => Lineage s₀ s ∧ Minted s)
      (fun w tr s => Recalls s₀ w tr s ∧ Sees w tr s) (fun _ _ => True) := by
  refine (lineage_proof cfg s₀).extend (fun _ _ h => h) ?_ ?_ ?_
  · intro w s _ _
    exact ⟨fun c p h => (by cases h), fun tpl p h => (by cases h)⟩
  · intro σ w c tr op r s' _ hminted _ hsees _ _ hp _
    have heff := execute_effect hp.result
    exact ⟨hminted.exec heff, hsees.cons hminted hp.result, fun _ _ _ _ _ h =>
      h.mono heff.created_subset⟩
  · intro σ e s' _ hminted _ he
    have heff := envStep_effect he
    exact ⟨hminted.env heff, fun w x _ _ h => h.mono heff.created_subset⟩

theorem Fresh.minted (h : Fresh s) : Minted s where
  known v hv p hp := by
    rw [h.view hv, h.noPods] at hp
    cases hp
  below q hq := by rw [h.noneCreated] at hq; cases hq
  unique q hq := by rw [h.noneCreated] at hq; cases hq

/-! ## Retries -/

instance (c : TaskCore) : Decidable c.provisioning := inferInstanceAs (Decidable (_ ∨ _))

/-- A Pod list answered to a task that is Pending or Provisioning does not make it
pick a Pod of an earlier attempt. -/
def listsCurrent (σ : State) (e : Event) : Bool :=
  match listing σ e with
  | some (⟨.agentTask, key⟩, pods) =>
    match σ.world.tasks key, ownedPodIn (taskWorkload key) pods none with
    | some t, some p => !t.status.core.provisioning || p.attempt == t.status.retries
    | _, _ => true
  | _ => true

/-- The Pod `u` was created for attempt `a` of the task. -/
def AttemptOf (s : Cluster) (k : NamespacedName) (u : UID) (a : Nat) : Prop :=
  ∃ q ∈ s.created, q.uid = u ∧ q.owner = taskWorkload k ∧ q.attempt = a

def TaskCore.underWay (c : TaskCore) : Prop := c.phase = .running ∨ c.phase = .completing

/-- Every attempt that was counted, and the one under way, had a Pod. -/
structure Counted (s : Cluster) : Prop where
  earlier : ∀ k t, s.tasks k = some t → ∀ a < t.status.retries, ∃ u, AttemptOf s k u a
  current : ∀ k t, s.tasks k = some t → t.status.core.underWay →
    ∃ u, AttemptOf s k u t.status.retries

/-- The Pod a pass was given while provisioning is one of the attempt it was in. -/
def Picks (w : Workload) (tr : History) (s : Cluster) : Prop :=
  w.kind = .agentTask → (s.tasks w.key).isSome = true → ∀ c p,
    (taskView w.key tr).listed = some (c, some p) → c.provisioning → p.attempt = c.retries

variable {s₀ : Cluster} {k : NamespacedName}

theorem AttemptOf.mono {u : UID} {a : Nat} (h : AttemptOf s k u a)
    (hsub : s.created ⊆ s'.created) : AttemptOf s' k u a := by
  obtain ⟨q, hq, hrest⟩ := h
  exact ⟨q, hsub hq, hrest⟩

/-- What a move needs of the Pods: an attempt under way has one, and so has the
attempt a provisioning pass was given a Pod in. -/
theorem TaskMove.attempt {spec : AgentTaskSpec} {core core' : TaskCore} {cause : Option Cause}
    {P : Nat → Prop} (h : TaskMove spec k tr core core' cause)
    (hcurrent : core.underWay → P core.retries)
    (hpicks : ∀ c₀ p, (taskView k tr).listed = some (c₀, some p) → c₀.provisioning →
      P c₀.retries) :
    (core'.underWay → P core'.retries) ∧
      (core'.retries = core.retries ∨ (core'.retries = core.retries + 1 ∧ P core.retries)) := by
  have hhere : ∀ p, ListsHere k tr core (some p) → core.provisioning → P core.retries := by
    rintro p ⟨c₀, hl, hretries, hphase⟩ hprov
    rw [← hretries]
    refine hpicks c₀ p hl ?_
    rw [TaskCore.provisioning, hphase]
    exact hprov
  have hfailed : AttemptFailed spec k tr core cause → P core.retries := by
    intro hf
    cases hf with
    | early p hphase hl => exact hhere p hl hphase
    | lost pod hphase => exact hcurrent (.inl hphase)
    | report payload writers hphase | silent hphase | exit pod hphase =>
      exact hcurrent (.inr hphase)
  cases h with
  | refresh => exact ⟨hcurrent, .inl rfl⟩
  | stamp _ p => exact ⟨hcurrent, .inl rfl⟩
  | start _ p now hphase hl => exact ⟨fun _ => hhere p hl hphase, .inl rfl⟩
  | complete _ _ he =>
    refine ⟨fun _ => ?_, .inl rfl⟩
    cases he with
    | report payload writers hphase => exact hcurrent (.inl hphase)
    | exit p hphase hmode hl =>
      rcases hphase with hprov | hrun
      · exact hhere p hl hprov
      · exact hcurrent (.inl hrun)
    | timeout hphase => exact hcurrent (.inl hphase)
  | retry _ _ hf =>
    refine ⟨fun hway => ?_, .inr ⟨rfl, hfailed hf⟩⟩
    rcases hway with hp | hp <;> cases hp
  | _ =>
    refine ⟨fun hway => ?_, .inl rfl⟩
    rcases hway with hp | hp <;> cases hp

theorem attempt_of_listed (hsees : Sees w tr s) (hpicks : Picks w tr s)
    (hkind : w.kind = .agentTask) (hthere : (s.tasks w.key).isSome = true) {core : TaskCore}
    {p : Pod} (hl : (taskView w.key tr).listed = some (core, some p))
    (hprov : core.provisioning) : AttemptOf s w.key p.uid core.retries := by
  obtain ⟨howner, q, hq, htemplate, huid⟩ := hsees.listed core p hl
  refine ⟨q, hq, huid, ?_, ?_⟩
  · exact (congrArg PodTemplate.owner htemplate).trans howner
  · exact (congrArg PodTemplate.attempt htemplate).trans (hpicks hkind hthere core p hl hprov)

theorem Counted.step (h : Counted s) (hsub : s.created ⊆ s'.created)
    (hstep : ∀ k, TaskStep (fun w tr => Sees w tr s ∧ Picks w tr s) s s' k) : Counted s' := by
  have hold : ∀ k t, s.tasks k = some t → ∀ a < t.status.retries, ∃ u, AttemptOf s' k u a := by
    intro k t ht a ha
    obtain ⟨u, hu⟩ := h.earlier k t ht a ha
    exact ⟨u, hu.mono hsub⟩
  have hnow : ∀ k t, s.tasks k = some t → t.status.core.underWay →
      ∃ u, AttemptOf s' k u t.status.retries := by
    intro k t ht hway
    obtain ⟨u, hu⟩ := h.current k t ht hway
    exact ⟨u, hu.mono hsub⟩
  have hall : ∀ k t', s'.tasks k = some t' →
      (∀ a < t'.status.retries, ∃ u, AttemptOf s' k u a) ∧
      (t'.status.core.underWay → ∃ u, AttemptOf s' k u t'.status.retries) := by
    intro k t' ht'
    obtain hleaves | ⟨tr, t, u, cause, ⟨hsees, hpicks⟩, hw⟩ := hstep k
    · obtain ⟨t, ht, -, hstatus⟩ := hleaves.task t' ht'
      rw [hstatus]
      exact ⟨hold k t ht, hnow k t ht⟩
    · obtain rfl := hw.task ht'
      have hthere : (s.tasks k).isSome = true := by rw [hw.stored]; rfl
      obtain ⟨hnew, hretries⟩ := hw.move.attempt (P := fun a => ∃ u, AttemptOf s' k u a)
        (hnow k t hw.stored)
        (fun c₀ p hl hprov =>
          ⟨p.uid, (attempt_of_listed hsees hpicks rfl hthere hl hprov).mono hsub⟩)
      refine ⟨fun a ha => ?_, hnew⟩
      rcases hretries with hsame | ⟨hnext, hlast⟩
      · exact hold k t hw.stored a (ha.trans_eq hsame)
      · rcases Nat.lt_succ_iff_lt_or_eq.mp (ha.trans_eq hnext) with hlt | rfl
        · exact hold k t hw.stored a hlt
        · exact hlast
  exact ⟨fun k t' ht' => (hall k t' ht').1, fun k t' ht' => (hall k t' ht').2⟩

theorem Effect.task_isSome (heff : Effect s op s') (h : (s'.tasks k).isSome = true) :
    (s.tasks k).isSome = true := by
  obtain ⟨t', ht'⟩ := Option.isSome_iff_exists.mp h
  obtain ⟨t, ht, -⟩ := heff.task ht'
  rw [ht]
  rfl

theorem EnvEffect.task_isSome (heff : EnvEffect s e s') (h : (s'.tasks k).isSome = true) :
    (s.tasks k).isSome = true := by
  obtain ⟨t', ht'⟩ := Option.isSome_iff_exists.mp h
  obtain ⟨t, ht, -⟩ := heff.task ht'
  rw [ht]
  rfl

theorem Picks.cons {σ : State} {r : Except ApiError (Ans op)} (h : Picks w tr σ.world)
    (hrec : Recalls s₀ w tr σ.world) (hguard : listsCurrent σ (.exec w c) = true)
    (hp : (system cfg).Performs σ w c tr op r s') : Picks w (⟨op, r⟩ :: tr) s' := by
  intro hkind hthere core p hl hprov
  have hthere' := (execute_effect hp.result).task_isSome hthere
  rcases TaskView.note_listed w.key (taskView w.key tr) ⟨op, r⟩ with
    hsame | ⟨ns, selector, pods, core', heq, -, hbase, hnew⟩
  · exact h hkind hthere' core p (hsame.symm.trans hl) hprov
  · cases heq
    obtain ⟨rfl, hpick⟩ : core' = core ∧ ownedPodIn (taskWorkload w.key) pods none = some p := by
      have := hnew.symm.trans hl
      simpa only [Option.some.injEq, Prod.mk.injEq] using this
    obtain ⟨t, ht⟩ := Option.isSome_iff_exists.mp hthere'
    have hcore : t.status.core = core' := hrec.base hkind core' t hbase ht
    have hlisted := listing_of_performs hp
    obtain ⟨kind, key⟩ := w
    cases hkind
    simp only [listsCurrent, hlisted, ht, hpick, hcore, hprov, decide_true, Bool.not_true,
      Bool.false_or, beq_iff_eq] at hguard
    rw [hguard, ← hcore]
    rfl

/-- Under the guard, every retry is the retry of an attempt that had a Pod. -/
theorem counted_proof (cfg : Config) (s₀ : Cluster) :
    (system cfg).Proof (contract cfg) (fun s => (Lineage s₀ s ∧ Minted s) ∧ Counted s)
      (fun w tr s => (Recalls s₀ w tr s ∧ Sees w tr s) ∧ Picks w tr s)
      (fun σ e => listsCurrent σ e = true) := by
  refine (minted_proof cfg s₀).extend (fun _ _ _ => trivial) ?_ ?_ ?_
  · intro w s _ _ _ _ c p h
    cases h
  · intro σ w c tr op r s' hinv hcounted hknows hpicks hguard hallow hp _
    have heff := execute_effect hp.result
    exact ⟨hcounted.step heff.created_subset
        (hknows.1.step hinv.1 heff hallow fun _ => ⟨hknows.2, hpicks⟩),
      hpicks.cons hknows.1 hguard hp,
      fun w' x _ _ _ h hkind hthere => h hkind (heff.task_isSome hthere)⟩
  · intro σ e s' _ hcounted _ he
    have heff := envStep_effect he
    exact ⟨hcounted.step heff.created_subset fun k => .inl (heff.leaves k),
      fun w x _ _ h hkind hthere => h hkind (heff.task_isSome hthere)⟩

theorem Fresh.counted (h : Fresh s) : Counted s where
  earlier k t ht a ha := by
    rw [h.taskStatus k t ht] at ha
    exact absurd ha (Nat.not_lt_zero a)
  current k t ht hway := by
    rw [h.taskStatus k t ht] at hway
    rcases hway with h | h
    · cases h
    · cases h

def podsCreatedFor (s : Cluster) (k : NamespacedName) : List Pod :=
  s.created.filter fun p => p.owner = taskWorkload k

/-- In every run in which no Pod list makes a Pending or Provisioning task pick a Pod
of an earlier attempt, `status.retries` of every stored task is at most the number
of Pods created for it. -/
theorem retries_le_podsCreated (cfg : Config) {s₀ : Cluster} (hfresh : Fresh s₀)
    {es : List Event} {σ : State}
    (hrun : Run (system cfg).step (fun σ e => listsCurrent σ e = true) (PoolSpec.idle s₀) es σ)
    {k : NamespacedName} {t : AgentTask} (ht : σ.world.tasks k = some t) :
    t.status.retries ≤ (podsCreatedFor σ.world k).length := by
  have hsound := (counted_proof cfg s₀).run hrun
    (PoolSpec.sound_idle ⟨⟨hfresh.lineage, hfresh.minted⟩, hfresh.counted⟩)
  -- one Pod for each attempt below `retries`, and Pods of different attempts differ
  have hsub : List.range t.status.retries ⊆ (podsCreatedFor σ.world k).map (·.attempt) := by
    intro a ha
    obtain ⟨u, q, hq, -, howner, hattempt⟩ := hsound.inv.2.earlier k t ht a (List.mem_range.mp ha)
    exact List.mem_map.mpr ⟨q, List.mem_filter.mpr ⟨hq, decide_eq_true howner⟩, hattempt⟩
  calc t.status.retries = (List.range t.status.retries).length := (List.length_range).symm
    _ ≤ ((podsCreatedFor σ.world k).map (·.attempt)).length :=
        (List.subperm_of_subset List.nodup_range hsub).length_le
    _ = (podsCreatedFor σ.world k).length := List.length_map _

/-- A task that may be retried twice, on its own. -/
def retryCluster : Cluster := plainCluster [] [plainTask soloKey .agentReported 2]

theorem fresh_retryCluster : Fresh retryCluster :=
  fresh_plainCluster fun t ht => by rw [List.mem_singleton.mp ht]; rfl

/-- The first Pod fails before it is Ready, and the task is retried. -/
def retryEvents : List Event :=
  soloEvents ++ List.replicate 2 (.exec (taskWorkload soloKey) .ok) ++
    [.env (.podStatus 1 .failed false [])] ++ passEvents (taskWorkload soloKey) 8

theorem retries_le_podsCreated_retryCluster :
    ∃ σ t, exec (guarded listsCurrent (system plainConfig).step) (PoolSpec.idle retryCluster)
        retryEvents = some σ ∧ σ.world.tasks soloKey = some t ∧
      t.status.retries ≤ (podsCreatedFor σ.world soloKey).length := by
  have hstored : ((exec (guarded listsCurrent (system plainConfig).step)
      (PoolSpec.idle retryCluster) retryEvents).bind
        fun σ => σ.world.tasks soloKey).isSome = true := by decide +kernel
  obtain ⟨t, hstored⟩ := Option.isSome_iff_exists.mp hstored
  obtain ⟨σ, hσ, ht⟩ := Option.bind_eq_some_iff.mp hstored
  exact ⟨σ, t, hσ, ht, retries_le_podsCreated plainConfig fresh_retryCluster
    (run_of_exec_guarded hσ) ht⟩

/-- The next pass still finds the failed Pod, terminating, and fails it again. -/
theorem two_retries_of_one_pod :
    Fresh retryCluster ∧
    Run (system plainConfig).step anyStep (PoolSpec.idle retryCluster)
      (retryEvents ++ passEvents (taskWorkload soloKey) 8)
      (reached plainConfig retryCluster (retryEvents ++ passEvents (taskWorkload soloKey) 8)) ∧
    ((reached plainConfig retryCluster (retryEvents ++ passEvents (taskWorkload soloKey) 8)).world
      |>.tasks soloKey).map (·.status.retries) = some 2 ∧
    (podsCreatedFor (reached plainConfig retryCluster
      (retryEvents ++ passEvents (taskWorkload soloKey) 8)).world soloKey).length = 1 :=
  ⟨fresh_retryCluster, run_any (by decide +kernel),
    by decide +kernel, by decide +kernel⟩

end Kaalm.Controller

/-
  Controller/Progress.lean --- a Running task whose container is done.

  PASSES IN A ROW.  `passOf` is a pass with fresh reads and succeeding writes: the
  API server answers every operation from the current store.  `passesAfter` lets
  time pass between such passes.

  LEAVING RUNNING.  A pass over a Running task either leaves the phase or leaves
  the store as it is.  With its Pod in a terminal phase it leaves Running at once,
  at the timeout, or never.
-/
import Kaalm.Controller.Finished
import Mathlib.Algebra.BigOperators.Intervals

namespace Kaalm.Controller

open Kaalm.Foundation
open Kaalm.Gateway (Time)
open Prog (Safe)

/-! ## Passes in a row -/

/-- A pass with fresh reads and succeeding writes. -/
def passOf (cfg : Config) (w : Workload) (s : Cluster) : Cluster :=
  ((reconcile cfg w).play apply s).2

def Cluster.wait (s : Cluster) (d : Nat) : Cluster := { s with clock := s.clock + d }

def passesAfter (cfg : Config) (w : Workload) (delays : Nat → Nat) (s : Cluster) : Nat → Cluster
  | 0 => s
  | n + 1 => passOf cfg w ((passesAfter cfg w delays s n).wait (delays n))

/-! ## Programs that never write Running -/

def neverRuns : Contract Op Ans ApiError where
  answers _ := True
  allows _ op := ∀ u cause, op = .updateTaskStatus u cause → u.status.phase ≠ .running

def Left (k : NamespacedName) (s : Cluster) : Prop :=
  ∀ t, s.tasks k = some t → t.status.phase ≠ .running

section NeverRuns

variable {tr : History} {t : AgentTask} {α : Type}

theorem Left.play {Q : α → History → Prop} {k : NamespacedName} {s : Cluster} {p : Reconcile α}
    (hsafe : Safe neverRuns Q p tr) (hs : Left k s) :
    Left k (p.play apply s).2 := by
  refine Safe.play (fun _ => trivial) (fun tr op s hallow hs t' ht' => ?_) hsafe hs
  obtain ⟨t, ht, -, -, hstatus | ⟨u, cause, rfl, -, hstatus⟩⟩ := (apply_effect op s).task ht'
  · rw [hstatus]
    exact hs t ht
  · rw [hstatus]
    exact hallow u cause rfl

variable {cause : Option Cause}

theorem neverRuns_updateTaskStatus (h : t.status.phase ≠ .running) :
    Safe neverRuns done (updateTaskStatus t cause) tr :=
  Safe.perform_bind (fun u c heq => by cases heq; exact h) fun _ _ => trivial

theorem neverRuns_perform {op : Op} {Q : α → History → Prop} {f : Ans op → Reconcile α}
    (hop : ∀ u cause, op ≠ .updateTaskStatus u cause)
    (hf : ∀ a, Safe neverRuns Q (f a) (⟨op, .ok a⟩ :: tr)) :
    Safe neverRuns Q (Prog.perform op >>= f) tr :=
  Safe.perform_bind (fun u cause heq => absurd heq (hop u cause)) fun a _ => hf a

variable {msg reason : String}

theorem neverRuns_settle {phase : TaskPhase} (h : phase ≠ .running) :
    Safe neverRuns done (settle t phase reason msg cause) tr := by
  refine neverRuns_perform (fun _ _ heq => by cases heq) fun now => ?_
  have hphase : (noteSettled t phase now reason msg).status.phase ≠ .running := h
  exact Safe.bind (neverRuns_updateTaskStatus hphase) fun _ _ _ => trivial

theorem neverRuns_deleteOldPod (pod : Option Pod) : Safe neverRuns done (deleteOldPod pod) tr :=
  safe_deleteOldPod (fun _ _ _ heq => by cases heq) trivial (fun _ _ => trivial) pod

theorem neverRuns_resetMailbox : Safe neverRuns done (resetMailbox t) tr := by
  simp only [resetMailbox]
  split
  · refine safe_attempt .notFound (fun _ _ heq => by cases heq) (fun box _ => ?_) trivial
      fun e he => by cases e <;> trivial
    dsimp only
    split
    · trivial
    · exact Prog.safe_perform.mpr ⟨fun _ _ heq => (by cases heq), fun _ _ => trivial⟩
  · trivial

theorem neverRuns_afterClose (t : AgentTask) :
    Safe neverRuns done (do
      let pod ← ownedTaskPod t.key
      deleteOldPod pod
      resetMailbox t
      let _ ← updateTaskStatus (setTaskPhase t .provisioning) none) tr := by
  refine Safe.bind (Q := done) (neverRuns_perform (fun _ _ heq => by cases heq) fun _ => trivial)
    fun pod tr₁ _ => ?_
  refine Safe.bind (neverRuns_deleteOldPod pod) fun _ tr₂ _ => ?_
  refine Safe.bind neverRuns_resetMailbox fun _ tr₃ _ => ?_
  exact Safe.bind (neverRuns_updateTaskStatus (by intro h; cases h)) fun _ _ _ => trivial

theorem neverRuns_failOrRetry : Safe neverRuns done (failOrRetry t reason msg cause) tr := by
  simp only [failOrRetry]
  split
  · refine Safe.bind (neverRuns_updateTaskStatus (by intro h; cases h)) fun t' tr' _ => ?_
    exact neverRuns_afterClose t'
  · exact neverRuns_settle (by decide)

theorem neverRuns_settleTimeout : Safe neverRuns done (settleTimeout t) tr := by
  simp only [settleTimeout]
  split
  · exact neverRuns_settle (by decide)
  · exact neverRuns_settle (by decide)

theorem neverRuns_completeByReport {payload : CompletionPayload} {writers : List UID} :
    Safe neverRuns done (completeByReport t payload writers) tr := by
  simp only [completeByReport]
  split
  · exact neverRuns_failOrRetry
  · split
    · exact neverRuns_settle (by decide)
    · exact neverRuns_failOrRetry

theorem neverRuns_timeoutOrFail :
    Safe neverRuns done (do
      let now ← readClock
      if timedOut t now then settleTimeout t else failOrRetry t reason msg none) tr := by
  refine neverRuns_perform (fun _ _ heq => by cases heq) fun now => ?_
  split
  · exact neverRuns_settleTimeout
  · exact neverRuns_failOrRetry

theorem neverRuns_readMailbox (key : NamespacedName) : Safe neverRuns done (readMailbox key) tr :=
  safe_attempt .notFound (fun _ _ heq => by cases heq) (fun _ _ => trivial) trivial
    fun e he => by cases e <;> trivial

theorem neverRuns_driveCompleting {pod : Option Pod} :
    Safe neverRuns done (driveCompleting t pod) tr := by
  simp only [driveCompleting]
  split
  · refine Safe.bind (neverRuns_readMailbox t.key) fun x tr' _ => ?_
    split
    · exact neverRuns_completeByReport
    · exact neverRuns_timeoutOrFail
  · split
    · exact neverRuns_settle (by decide)
    · split
      · exact neverRuns_failOrRetry
      · exact neverRuns_timeoutOrFail

end NeverRuns

/-! ## One pass over a Running task -/

def currentPod (s : Cluster) (k : NamespacedName) : Option Pod :=
  ownedPodIn (taskWorkload k) (selectPods k.ns (taskPodLabels k.name) s.pods) none

def mailPayload (s : Cluster) (k : NamespacedName) : CompletionPayload :=
  match s.children .configMap (mailboxKey k) with
  | some box => parseCompletion box.val.data
  | none => parseCompletion ∅

structure Ended (k : NamespacedName) (s : Cluster) (t : AgentTask) (p : Pod) : Prop where
  stored : s.tasks k = some t
  key : t.key = k
  phase : t.status.phase = .running
  pod : currentPod s k = some p
  ended : p.phase.terminal = true

/-- What a pass finds that makes it leave Running. -/
def leavesNow (s : Cluster) (t : AgentTask) (p : Pod) : Bool :=
  !isAgentReported t.spec || (mailPayload s t.key).status != "" || timedOut t s.clock ||
    p.phase == .failed

section Pass

variable {cfg : Config} {k : NamespacedName} {s : Cluster} {t : AgentTask} {p : Pod}
  {cause : Option Cause} {cur u : AgentTask}

theorem play_updateTaskStatus (hcur : s.tasks u.key = some cur) (hrv : cur.rv = u.rv) :
    (updateTaskStatus u cause).play apply s =
      (.ok { u with rv := s.revision + 1 }, s.setTaskStatus u cause cur) := by
  have happly : apply (.updateTaskStatus u cause) s =
      (.ok (s.revision + 1), s.setTaskStatus u cause cur) := by
    simp only [apply, applyUpdateTaskStatus, checkedUpdate, hcur, hrv, if_true]
    rfl
  exact Prog.play_bind_ok (Prog.play_perform happly)

theorem play_ownedTaskPod : (ownedTaskPod k).play apply s = (.ok (currentPod s k), s) :=
  Prog.play_bind_ok (Prog.play_perform rfl)

theorem play_readMailbox :
    ∃ writers, (readMailbox k).play apply s = (.ok (mailPayload s k, writers), s) := by
  cases hbox : s.children .configMap (mailboxKey k) with
  | none =>
    refine ⟨[], ?_⟩
    simp only [readMailbox, getChild, Prog.play_bind, Prog.play_attempt, apply, fetch, found, hbox,
      mailPayload, Prog.play_pure]
  | some box =>
    refine ⟨box.val.writers, ?_⟩
    simp only [readMailbox, getChild, Prog.play_bind, Prog.play_attempt, apply, fetch, found, hbox,
      mailPayload, Prog.play_pure]

theorem left_setTaskStatus (h : u.status.phase ≠ .running) :
    Left u.key (s.setTaskStatus u cause cur) := by
  intro t ht
  have hnew : some t = some { cur with status := u.status, rv := s.revision + 1 } :=
    ht.symm.trans (Function.update_self ..)
  rw [Option.some.inj hnew]
  exact h

section Leaving

variable (hcur : s.tasks u.key = some cur) (hrv : cur.rv = u.rv)
include hcur hrv

theorem left_of_write {α : Type} {f : AgentTask → Reconcile α} (hphase : u.status.phase ≠ .running)
    (hf : ∀ t', Safe neverRuns done (f t') []) :
    Left u.key ((updateTaskStatus u cause >>= f).play apply s).2 := by
  rw [Prog.play_bind_ok (play_updateTaskStatus hcur hrv)]
  exact Left.play (hf _) (left_setTaskStatus hphase)

theorem left_enterCompleting {pod : Option Pod} :
    Left u.key ((enterCompleting u pod cause).play apply s).2 :=
  left_of_write (u := setTaskPhase u .completing) hcur hrv (by intro h; cases h)
    fun _ => neverRuns_driveCompleting

theorem left_failOrRetry {reason msg : String} :
    Left u.key ((failOrRetry u reason msg cause).play apply s).2 := by
  simp only [failOrRetry]
  split
  · exact left_of_write (u := closeAttempt u reason msg) hcur hrv (by intro h; cases h)
      fun t' => neverRuns_afterClose t'
  · have hclock : readClock.play apply s = (.ok s.clock, s) := Prog.play_perform rfl
    simp only [settle]
    exact left_of_write (u := noteSettled u .failed s.clock reason msg) hcur hrv
      (by intro h; cases h) fun _ => trivial

theorem driveRunning_ended (hended : p.phase.terminal = true) :
    (leavesNow s u p = true → Left u.key ((driveRunning u (some p)).play apply s).2) ∧
    (leavesNow s u p = false → ((driveRunning u (some p)).play apply s).2 = s) := by
  have hclock : readClock.play apply s = (.ok s.clock, s) := Prog.play_perform rfl
  cases hmode : isAgentReported u.spec with
  | false =>
    simp only [leavesNow, driveRunning, hmode, Bool.not_false, Bool.true_or, hended, if_true,
      Bool.false_eq_true, if_false]
    exact ⟨fun _ => left_enterCompleting hcur hrv, fun h => by cases h⟩
  | true =>
    obtain ⟨writers, hread⟩ := play_readMailbox (k := u.key) (s := s)
    simp only [leavesNow, driveRunning, hmode, Bool.not_true, Bool.false_or, if_true]
    rw [Prog.play_bind_ok hread]
    by_cases hmail : (mailPayload s u.key).status = ""
    · simp only [hmail, ne_eq, not_true_eq_false, if_false, bne_self_eq_false, Bool.false_or,
        watchRunning]
      rw [Prog.play_bind_ok hclock]
      cases htime : timedOut u s.clock with
      | true =>
        exact ⟨fun _ => left_enterCompleting hcur hrv, fun h => by cases h⟩
      | false =>
        by_cases hfailed : p.phase = .failed
        · simp only [hfailed, hmode, and_self, if_true, beq_self_eq_true]
          exact ⟨fun _ => left_failOrRetry hcur hrv, fun h => by cases h⟩
        · simp only [hfailed, and_false, if_false]
          refine ⟨fun h => ?_, fun _ => rfl⟩
          exact absurd (beq_iff_eq.mp h) hfailed
    · simp only [ne_eq, hmail, not_false_eq_true, if_true, bne_iff_ne, Bool.or_eq_true, true_or]
      refine ⟨fun _ => left_enterCompleting hcur hrv, fun h => ?_⟩
      simp [hmail] at h

end Leaving

/-- A pass gets to the phase of the task. -/
structure Drivable (cfg : Config) (s : Cluster) (t : AgentTask) : Prop where
  alive : t.deletionTimestamp = none
  held : t.finalizer = true
  ns : t.key.ns ≠ cfg.operatorNamespace
  cls : (s.classes t.spec.agentClassRef).isSome = true

structure Persists (k : NamespacedName) (s : Cluster) (t : AgentTask) (p : Pod) (s' : Cluster)
    (t' : AgentTask) (p' : Pod) : Prop where
  ended : Ended k s' t' p'
  spec : t'.spec = t.spec
  deletion : t'.deletionTimestamp = t.deletionTimestamp
  finalizer : t.finalizer = true → t'.finalizer = true
  startTime : t'.status.startTime = t.status.startTime
  podPhase : p'.phase = p.phase
  mail : mailPayload s' k = mailPayload s k
  classes : s'.classes = s.classes

theorem Ended.persists (h : Ended k s t p) : Persists k s t p s t p :=
  ⟨h, rfl, rfl, id, rfl, rfl, rfl, rfl⟩

theorem Persists.trans {s₁ s₂ : Cluster} {t₁ t₂ : AgentTask} {p₁ p₂ : Pod}
    (h₁ : Persists k s t p s₁ t₁ p₁) (h₂ : Persists k s₁ t₁ p₁ s₂ t₂ p₂) :
    Persists k s t p s₂ t₂ p₂ where
  ended := h₂.ended
  spec := h₂.spec.trans h₁.spec
  deletion := h₂.deletion.trans h₁.deletion
  finalizer := h₂.finalizer ∘ h₁.finalizer
  startTime := h₂.startTime.trans h₁.startTime
  podPhase := h₂.podPhase.trans h₁.podPhase
  mail := h₂.mail.trans h₁.mail
  classes := h₂.classes.trans h₁.classes

theorem Ended.wait (h : Ended k s t p) (d : Nat) : Persists k s t p (s.wait d) t p :=
  ⟨⟨h.stored, h.key, h.phase, h.pod, h.ended⟩, rfl, rfl, id, rfl, rfl, rfl, rfl⟩

theorem phase_observeTask (h : t.status.phase = .running) :
    (observeTask t).status.phase = .running := by
  simp [observeTask, h]

theorem Ended.observed (h : Ended k s t p) : s.tasks (observeTask t).key = some t := by
  show s.tasks t.key = some t
  rw [h.key]
  exact h.stored

theorem Ended.refresh (h : Ended k s t p) {ok : Bool} {reason msg : String} :
    ∃ t', Persists k s t p ((updateTaskStatus (setTaskReady (observeTask t) ok reason msg) none >>=
        fun _ => pure ()).play apply s).2 t' p ∧
      ((updateTaskStatus (setTaskReady (observeTask t) ok reason msg) none >>=
        fun _ => (pure () : Reconcile Unit)).play apply s).2.clock = s.clock := by
  have hcur : s.tasks (setTaskReady (observeTask t) ok reason msg).key = some t := h.observed
  rw [Prog.play_bind_ok (play_updateTaskStatus hcur rfl)]
  refine ⟨{ t with
    status := (setTaskReady (observeTask t) ok reason msg).status, rv := s.revision + 1 },
    ⟨⟨?_, h.key, phase_observeTask h.phase, h.pod, h.ended⟩, rfl, rfl, id, rfl, rfl, rfl, rfl⟩,
    rfl⟩
  rw [← h.key]
  exact Function.update_self ..

theorem currentPod_terminate (uid : UID) (now : Time) (hpod : currentPod s k = some p) :
    ∃ p', ownedPodIn (taskWorkload k) (selectPods k.ns (taskPodLabels k.name)
      (mapPod uid (Pod.terminate now) s.pods)) none = some p' := by
  refine Option.ne_none_iff_exists'.mp fun hnone => ?_
  obtain ⟨-, hothers⟩ := (ownedPodIn_eq_none_iff _ _ none).mp hnone
  rcases mem_of_ownedPodIn _ _ none p hpod with hcand | ⟨hmem, howner⟩
  · cases hcand
  · obtain ⟨hin, hsel⟩ := List.mem_filter.mp hmem
    let f : Pod → Pod := fun q => if q.uid = uid then q.terminate now else q
    have hf : (f p).toPodTemplate = p.toPodTemplate := by
      simp only [f]
      split <;> rfl
    refine hothers (f p) (List.mem_filter.mpr ⟨List.mem_map_of_mem hin, ?_⟩)
      ((congrArg PodTemplate.owner hf).trans howner)
    have hns : (f p).ns = p.ns := congrArg PodTemplate.ns hf
    have hlabels : (f p).labels = p.labels := congrArg PodTemplate.labels hf
    rw [hns, hlabels]
    exact hsel

theorem play_reconcileTask (ht : s.tasks k = some t) :
    (reconcileTask cfg k).play apply s =
      (if t.deletionTimestamp.isSome then reconcileTaskDelete t
        else if t.finalizer then reconcileHeld cfg (observeTask t)
        else writeTask { t with finalizer := true } >>= fun _ => pure ()).play apply s := by
  simp only [reconcileTask, getTask, Prog.play_bind, Prog.play_attempt, apply, fetch, found, ht]

theorem passOf_deleted (ht : s.tasks k = some t) (hkey : t.key = k)
    (hdeleted : t.deletionTimestamp.isSome = true) (hpod : (currentPod s k).isSome = true) :
    (passOf cfg (taskWorkload k) s).tasks k = some t ∧
      (currentPod (passOf cfg (taskWorkload k) s) k).isSome = true := by
  obtain ⟨p, hp⟩ := Option.isSome_iff_exists.mp hpod
  have hpass : passOf cfg (taskWorkload k) s = ((reconcileTaskDelete t).play apply s).2 := by
    show ((reconcileTask cfg k).play apply s).2 = _
    rw [play_reconcileTask ht, if_pos hdeleted]
  rw [hpass]
  simp only [reconcileTaskDelete]
  split
  · rw [hkey, Prog.play_bind_ok play_ownedTaskPod]
    simp only [hp]
    split
    · have hdelete : ((deletePodIgnoringNotFound p).play apply s).2 =
          (apply (.deletePod p.uid) s).2 := by
        simp only [deletePodIgnoringNotFound, deletePod, Prog.play_bind, Prog.play_attempt, apply,
          applyDeletePod]
        split <;> rfl
      rw [hdelete]
      simp only [apply, applyDeletePod]
      split
      · obtain ⟨p', hp'⟩ := currentPod_terminate p.uid s.clock hp
        exact ⟨ht, Option.isSome_iff_exists.mpr ⟨p', hp'⟩⟩
      · exact ⟨ht, hpod⟩
    · exact ⟨ht, hpod⟩
  · exact ⟨ht, hpod⟩

theorem reconcileHeld_running (h : t.status.phase = .running) :
    reconcileHeld cfg (observeTask t) = reconcileActive cfg (observeTask t) := by
  simp only [reconcileHeld, phase_observeTask h, reduceCtorEq, false_and, if_false,
    isTerminalTaskPhase, Bool.false_eq_true]

theorem play_getClass {name : String} : (getClass name).play apply s =
    (.ok (fetch (s.classes name) s).1, (fetch (s.classes name) s).2) := rfl

theorem play_reconcileHeld (h : Ended k s t p)
    (hns : (observeTask t).key.ns ≠ cfg.operatorNamespace)
    {cls : AgentClass} (hcls : s.classes (observeTask t).spec.agentClassRef = some cls) :
    (reconcileHeld cfg (observeTask t)).play apply s =
      (driveRunning (observeTask t) (some p)).play apply s := by
  have hkey : (observeTask t).key = k := h.key
  rw [reconcileHeld_running h.phase, reconcileActive, if_neg hns, Prog.play_bind_ok play_getClass]
  simp only [fetch, found, hcls]
  rw [hkey, Prog.play_bind_ok play_ownedTaskPod]
  simp only [h.pod, Option.isNone_some, Bool.false_eq_true, false_and, if_false, drive,
    phase_observeTask h.phase]

/-- A pass over a task that is not being deleted leaves Running, or leaves what
matters as it was. -/
theorem passOf_ended (h : Ended k s t p) (halive : t.deletionTimestamp = none) :
    (Drivable cfg s t → leavesNow s t p = true → Left k (passOf cfg (taskWorkload k) s)) ∧
    (¬(Drivable cfg s t ∧ leavesNow s t p = true) →
      ∃ t', Persists k s t p (passOf cfg (taskWorkload k) s) t' p ∧ t'.finalizer = true ∧
        (passOf cfg (taskWorkload k) s).clock = s.clock) := by
  have hpass : passOf cfg (taskWorkload k) s =
      ((if t.finalizer then reconcileHeld cfg (observeTask t)
        else writeTask { t with finalizer := true } >>= fun _ => pure ()).play apply s).2 := by
    show ((reconcileTask cfg k).play apply s).2 = _
    rw [play_reconcileTask h.stored, halive]
    rfl
  rw [hpass]
  cases hfin : t.finalizer with
  | false =>
    refine ⟨fun hdriv => absurd (hfin.symm.trans hdriv.held) (by decide), fun _ => ?_⟩
    have hcur : s.tasks t.key = some t := h.observed
    have happly : apply (.updateTask { t with finalizer := true }) s =
        (.ok (s.revision + 1), s.setTaskMeta { t with finalizer := true } t) := by
      simp only [apply, applyUpdateTask, checkedUpdate, hcur, if_true]
      rfl
    have hwrite : (writeTask { t with finalizer := true }).play apply s =
        (.ok (s.revision + 1), s.setTaskMeta { t with finalizer := true } t) :=
      Prog.play_perform happly
    simp only [Bool.false_eq_true, if_false]
    rw [Prog.play_bind_ok hwrite]
    refine ⟨{ t with finalizer := true, rv := s.revision + 1 },
      ⟨⟨?_, h.key, h.phase, h.pod, h.ended⟩, rfl, rfl, fun _ => rfl, rfl, rfl, rfl, rfl⟩, rfl, rfl⟩
    rw [← h.key]
    exact (Function.update_self ..).trans (unlessReleased_held _ _ rfl)
  | true =>
    simp only [if_true]
    by_cases hns : (observeTask t).key.ns = cfg.operatorNamespace
    · refine ⟨fun hdriv => absurd hns hdriv.ns, fun _ => ?_⟩
      rw [reconcileHeld_running h.phase, reconcileActive, if_pos hns]
      obtain ⟨t', hpers, hclock⟩ := h.refresh
      exact ⟨t', hpers, hpers.finalizer hfin, hclock⟩
    · cases hcls : s.classes (observeTask t).spec.agentClassRef with
      | none =>
        refine ⟨fun hdriv => absurd (hcls ▸ hdriv.cls) (by decide), fun _ => ?_⟩
        rw [reconcileHeld_running h.phase, reconcileActive, if_neg hns,
          Prog.play_bind_ok play_getClass]
        simp only [fetch, found, hcls]
        obtain ⟨t', hpers, hclock⟩ := h.refresh
        exact ⟨t', hpers, hpers.finalizer hfin, hclock⟩
      | some cls =>
        rw [play_reconcileHeld h hns hcls]
        obtain ⟨hleaves, hstays⟩ := driveRunning_ended h.observed rfl h.ended
        refine ⟨fun _ hnow => ?_, fun hnot => ?_⟩
        · have hkey : (observeTask t).key = k := h.key
          exact hkey ▸ hleaves hnow
        · have hdriv : Drivable cfg s t := ⟨halive, hfin, hns, Option.isSome_of_eq_some hcls⟩
          have hstill : leavesNow s t p = false :=
            Bool.eq_false_iff.mpr fun hnow => hnot ⟨hdriv, hnow⟩
          rw [hstays hstill]
          exact ⟨t, h.persists, hfin, rfl⟩

/-! ## Leaving Running -/

/-- Some later pass leaves Running: the pass gets to the phase, and the task is of
a mode the exit settles, or its Pod failed, or a report is in, or there is a
timeout to run out. -/
def canLeave (cfg : Config) (s : Cluster) (t : AgentTask) (p : Pod) : Prop :=
  t.deletionTimestamp = none ∧ t.key.ns ≠ cfg.operatorNamespace ∧
    (s.classes t.spec.agentClassRef).isSome = true ∧
    (isAgentReported t.spec = false ∨ p.phase = .failed ∨ (mailPayload s t.key).status ≠ "" ∨
      (0 < t.spec.timeout ∧ t.status.startTime.isSome = true))

instance : Decidable (canLeave cfg s t p) :=
  inferInstanceAs (Decidable (_ ∧ _ ∧ _ ∧ (_ ∨ _ ∨ _ ∨ _)))

theorem canLeave_of_leavesNow (hdriv : Drivable cfg s t) (hnow : leavesNow s t p = true) :
    canLeave cfg s t p := by
  refine ⟨hdriv.alive, hdriv.ns, hdriv.cls, ?_⟩
  simp only [leavesNow, Bool.or_eq_true, Bool.not_eq_true', bne_iff_ne, beq_iff_eq] at hnow
  obtain ((hmode | hmail) | htime) | hfailed := hnow
  · exact .inl hmode
  · exact .inr (.inr (.inl hmail))
  · refine .inr (.inr (.inr ?_))
    cases hstart : t.status.startTime with
    | none => simp [timedOut, hstart] at htime
    | some start =>
      simp only [timedOut, hstart, gt_iff_lt, Bool.and_eq_true, decide_eq_true_eq] at htime
      exact ⟨htime.1, rfl⟩
  · exact .inr (.inl hfailed)

theorem canLeave.leavesNow (h : canLeave cfg s t p)
    (hclock : t.status.startTime.getD 0 + t.spec.timeout < s.clock) :
    leavesNow s t p = true := by
  simp only [Controller.leavesNow, Bool.or_eq_true, Bool.not_eq_true', bne_iff_ne, beq_iff_eq]
  obtain ⟨-, -, -, hmode | hfailed | hmail | ⟨htimeout, hstarted⟩⟩ := h
  · exact .inl (.inl (.inl hmode))
  · exact .inr hfailed
  · exact .inl (.inl (.inr hmail))
  · obtain ⟨start, hstart⟩ := Option.isSome_iff_exists.mp hstarted
    rw [hstart, Option.getD_some] at hclock
    refine .inl (.inr ?_)
    simp only [timedOut, hstart, gt_iff_lt, Bool.and_eq_true, decide_eq_true_eq]
    exact ⟨htimeout, lt_sub_iff_add_lt'.mpr hclock⟩

theorem Persists.canLeave_iff {s' : Cluster} {t' : AgentTask} {p' : Pod} (hk : t.key = k)
    (h : Persists k s t p s' t' p') : canLeave cfg s' t' p' ↔ canLeave cfg s t p := by
  simp only [canLeave, h.deletion, h.ended.key, hk, h.classes, h.spec, h.podPhase, h.mail,
    h.startTime]

/-- No pass will leave Running. -/
def Stuck (cfg : Config) (k : NamespacedName) (s : Cluster) : Prop :=
  ∃ t p, Ended k s t p ∧ t.deletionTimestamp = none ∧ ¬canLeave cfg s t p

def Removing (k : NamespacedName) (s : Cluster) : Prop :=
  ∃ t, s.tasks k = some t ∧ t.key = k ∧ t.status.phase = .running ∧
    t.deletionTimestamp.isSome = true ∧ (currentPod s k).isSome = true

theorem Stuck.pass (h : Stuck cfg k s) (d : Nat) :
    Stuck cfg k (passOf cfg (taskWorkload k) (s.wait d)) := by
  obtain ⟨t, p, hended, halive, hnot⟩ := h
  have hwait := hended.wait d
  have hnot' : ¬(Drivable cfg (s.wait d) t ∧ leavesNow (s.wait d) t p = true) := fun hnow =>
    hnot ((hwait.canLeave_iff hended.key).mp (canLeave_of_leavesNow hnow.1 hnow.2))
  obtain ⟨t', hpers, -, -⟩ := (passOf_ended hwait.ended halive).2 hnot'
  have hall := hwait.trans hpers
  exact ⟨t', p, hpers.ended, hall.deletion.trans halive,
    fun hcan => hnot ((hall.canLeave_iff hended.key).mp hcan)⟩

theorem Removing.pass (h : Removing k s) (d : Nat) :
    Removing k (passOf cfg (taskWorkload k) (s.wait d)) := by
  obtain ⟨t, ht, hkey, hphase, hdeleted, hpod⟩ := h
  have hnext : (passOf cfg (taskWorkload k) (s.wait d)).tasks k = some t ∧
      (currentPod (passOf cfg (taskWorkload k) (s.wait d)) k).isSome = true :=
    passOf_deleted (s := s.wait d) ht hkey hdeleted hpod
  exact ⟨t, hnext.1, hkey, hphase, hdeleted, hnext.2⟩

/-- A task that cannot leave Running is there after any number of passes. -/
theorem not_left_passesAfter (h : Ended k s t p) (hnot : ¬canLeave cfg s t p)
    (delays : Nat → Nat) (n : Nat) : ¬Left k (passesAfter cfg (taskWorkload k) delays s n) := by
  have hrunning : ∀ {s' : Cluster} {t' : AgentTask}, s'.tasks k = some t' →
      t'.status.phase = .running → ¬Left k s' := fun ht hphase hleft => hleft _ ht hphase
  cases hdel : t.deletionTimestamp with
  | none =>
    have hstuck : ∀ m, Stuck cfg k (passesAfter cfg (taskWorkload k) delays s m) := by
      intro m
      induction m with
      | zero => exact ⟨t, p, h, hdel, hnot⟩
      | succ m ih => exact ih.pass (delays m)
    obtain ⟨t', p', hended, -⟩ := hstuck n
    exact hrunning hended.stored hended.phase
  | some at_ =>
    have hremoving : ∀ m, Removing k (passesAfter cfg (taskWorkload k) delays s m) := by
      intro m
      induction m with
      | zero =>
        exact ⟨t, h.stored, h.key, h.phase, by rw [hdel]; rfl,
          Option.isSome_iff_exists.mpr ⟨p, h.pod⟩⟩
      | succ m ih => exact ih.pass (delays m)
    obtain ⟨t', ht', -, hphase, -⟩ := hremoving n
    exact hrunning ht' hphase

/-- As long as the task stays in Running, what matters of it persists and its
finalizer is on after the first pass. -/
theorem persists_passesAfter (h : Ended k s t p) (halive : t.deletionTimestamp = none)
    (delays : Nat → Nat)
    (hstays : ∀ n, ¬Left k (passesAfter cfg (taskWorkload k) delays s n)) (n : Nat) :
    ∃ t', Persists k s t p (passesAfter cfg (taskWorkload k) delays s n) t' p ∧
      (n ≠ 0 → t'.finalizer = true) ∧
      (passesAfter cfg (taskWorkload k) delays s n).clock =
        s.clock + ∑ i ∈ Finset.range n, delays i := by
  induction n with
  | zero => exact ⟨t, h.persists, fun hne => absurd rfl hne, by simp [passesAfter]⟩
  | succ n ih =>
    obtain ⟨t', hpers, -, hclock⟩ := ih
    have hwait := hpers.ended.wait (delays n)
    have halive' := hpers.deletion.trans halive
    obtain ⟨t'', hnext, hfin, hclock'⟩ := (passOf_ended hwait.ended halive').2 fun hnow =>
      hstays (n + 1) ((passOf_ended hwait.ended halive').1 hnow.1 hnow.2)
    refine ⟨t'', (hpers.trans hwait).trans hnext, fun _ => hfin, ?_⟩
    rw [Finset.sum_range_succ, Nat.cast_add, ← add_assoc, ← hclock]
    exact hclock'

/-- A task that can leave Running does, once enough time has passed. -/
theorem left_passesAfter (h : Ended k s t p) (hcan : canLeave cfg s t p) (delays : Nat → Nat)
    (helapses : ∀ T, ∃ n, T ≤ ∑ i ∈ Finset.range n, delays i) :
    ∃ n, Left k (passesAfter cfg (taskWorkload k) delays s n) := by
  by_contra hnone
  have hstays := not_exists.mp hnone
  obtain ⟨n, hn⟩ := helapses ((t.status.startTime.getD 0 + t.spec.timeout - s.clock).toNat + 1)
  have hpos : n ≠ 0 := by
    rintro rfl
    simp at hn
  obtain ⟨t', hpers, hfin, hclock⟩ := persists_passesAfter h hcan.1 delays hstays n
  -- the pass after the timeout gets to the phase and finds a reason to leave it
  have hwait := hpers.trans (hpers.ended.wait (delays n))
  have hcan' := (hwait.canLeave_iff h.key).mpr hcan
  have hlate : t'.status.startTime.getD 0 + t'.spec.timeout <
      ((passesAfter cfg (taskWorkload k) delays s n).wait (delays n)).clock := by
    show _ < (passesAfter cfg (taskWorkload k) delays s n).clock + delays n
    rw [hclock, hpers.startTime, hpers.spec]
    have henough := Int.self_le_toNat (t.status.startTime.getD 0 + t.spec.timeout - s.clock)
    have hsum := Int.ofNat_le.mpr hn
    rw [Int.natCast_succ] at hsum
    linarith only [henough, hsum, Int.natCast_nonneg (delays n)]
  have hdriv : Drivable cfg ((passesAfter cfg (taskWorkload k) delays s n).wait (delays n)) t' :=
    ⟨hcan'.1, hfin hpos, hcan'.2.1, hcan'.2.2.1⟩
  exact hstays (n + 1) ((passOf_ended hwait.ended hcan'.1).1 hdriv (hcan'.leavesNow hlate))

/-- A Running task whose Pod is done leaves Running after finitely many passes,
whatever the delays between them, exactly if it can. -/
theorem leaves_running_iff_canLeave (h : Ended k s t p) :
    (∀ delays : Nat → Nat, (∀ T, ∃ n, T ≤ ∑ i ∈ Finset.range n, delays i) →
      ∃ n, Left k (passesAfter cfg (taskWorkload k) delays s n)) ↔ canLeave cfg s t p := by
  refine ⟨fun hleaves => ?_, left_passesAfter h⟩
  by_contra hnot
  obtain ⟨n, hn⟩ := hleaves (fun _ => 1) fun T => ⟨T, by simp⟩
  exact not_left_passesAfter h hnot (fun _ => 1) n hn

theorem ended_of_check {P : AgentTask → Pod → Bool}
    (h : ((s.tasks k).bind fun t => (currentPod s k).map fun p =>
      decide (t.key = k) && decide (t.status.phase = .running) && p.phase.terminal && P t p) =
        some true) :
    ∃ t p, Ended k s t p ∧ P t p = true := by
  obtain ⟨t, ht, hrest⟩ := Option.bind_eq_some_iff.mp h
  obtain ⟨p, hp, hall⟩ := Option.map_eq_some_iff.mp hrest
  simp only [Bool.and_eq_true, decide_eq_true_eq] at hall
  obtain ⟨⟨⟨hkey, hphase⟩, hended⟩, hP⟩ := hall
  exact ⟨t, p, ⟨ht, hkey, hphase, hp, hended⟩, hP⟩

end Pass

/-- The Pod of a task that waits for a report exits 0 and reports nothing. -/
def silentEvents : List Event := runningEvents ++ [.env (.podStatus 1 .succeeded false [])]

def exitCodeEvents : List Event :=
  passEvents (taskWorkload soloKey) 2 ++ passEvents (taskWorkload soloKey) 7 ++
    [.env (.issue (certificateKey (taskWorkload soloKey)))] ++
    passEvents (taskWorkload soloKey) 9 ++ [.env (.podStatus 1 .running true [])] ++
    passEvents (taskWorkload soloKey) 5 ++ [.env (.podStatus 1 .succeeded false [])]

theorem leaves_running_iff_canLeave_exitCluster :
    ∃ t p, Ended soloKey (reached plainConfig exitCluster exitCodeEvents).world t p ∧
      ∀ delays : Nat → Nat, (∀ T, ∃ n, T ≤ ∑ i ∈ Finset.range n, delays i) →
        ∃ n, Left soloKey (passesAfter plainConfig (taskWorkload soloKey) delays
          (reached plainConfig exitCluster exitCodeEvents).world n) := by
  obtain ⟨t, p, hended, hcan⟩ := ended_of_check (k := soloKey)
    (s := (reached plainConfig exitCluster exitCodeEvents).world)
    (P := fun t p => decide (canLeave plainConfig
      (reached plainConfig exitCluster exitCodeEvents).world t p)) (by decide +kernel)
  exact ⟨t, p, hended, (leaves_running_iff_canLeave hended).mpr (of_decide_eq_true hcan)⟩

theorem silent_task_hangs :
    Fresh soloCluster ∧
    Run (system plainConfig).step anyStep (PoolSpec.idle soloCluster) silentEvents
      (reached plainConfig soloCluster silentEvents) ∧
    ∃ t p, Ended soloKey (reached plainConfig soloCluster silentEvents).world t p ∧
      p.phase = .succeeded ∧
      ∀ (delays : Nat → Nat) (n : Nat),
        ¬Left soloKey (passesAfter plainConfig (taskWorkload soloKey) delays
          (reached plainConfig soloCluster silentEvents).world n) := by
  refine ⟨fresh_soloCluster, run_any (by decide +kernel), ?_⟩
  obtain ⟨t, p, hended, hnot⟩ := ended_of_check (k := soloKey)
    (s := (reached plainConfig soloCluster silentEvents).world)
    (P := fun t p => decide (p.phase = .succeeded ∧ ¬canLeave plainConfig
      (reached plainConfig soloCluster silentEvents).world t p)) (by decide +kernel)
  obtain ⟨hphase, hstuck⟩ := of_decide_eq_true hnot
  exact ⟨t, p, hended, hphase, not_left_passesAfter hended hstuck⟩

end Kaalm.Controller

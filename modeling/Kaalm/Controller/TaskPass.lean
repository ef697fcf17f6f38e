/-
  Controller/TaskPass.lean --- an AgentTask pass does only what
  `Controller/TaskHistory.lean` lists.

  One lemma per function of the reconciler, from the bottom up: under what a
  caller holds, every operation of the function is allowed.  `Holds` is what
  stays true of the local copy along a pass; the stored core moves only with the
  pass's own status writes.
-/
import Kaalm.Controller.TaskHistory

namespace Kaalm.Controller

open Kaalm.Foundation
open Kaalm.Gateway (Time)
open Prog (Safe)

/-- The local copy belongs to the task, carries the spec that was read, and the
stored core is known. -/
structure Holds (key : NamespacedName) (tr : History) (t : AgentTask) (c : TaskCore) : Prop where
  named : t.key = key
  read : ∃ t₀ : AgentTask, ⟨.getTask key, .ok t₀⟩ ∈ tr ∧ t.spec = t₀.spec
  self : SawSelf (taskWorkload key) tr
  base : (taskView key tr).base = some c

/-- As `Holds`, and the local copy has the stored core. -/
abbrev Synced (key : NamespacedName) (tr : History) (t : AgentTask) : Prop :=
  Holds key tr t t.status.core

variable {cfg : Config} {key : NamespacedName} {tr : History} {t : AgentTask} {c : TaskCore}

/-! ## What an observation leaves alone -/

theorem Holds.cons (h : Holds key tr t c) (o : Observed)
    (hview : (taskView key (o :: tr)).base = (taskView key tr).base) :
    Holds key (o :: tr) t c := by
  obtain ⟨t₀, hm, hs⟩ := h.read
  exact ⟨h.named, ⟨t₀, .tail o hm, hs⟩, h.self.mono (List.subset_cons_self o tr),
    hview.trans h.base⟩

variable {t' : AgentTask}

theorem Holds.congr (h : Holds key tr t c) (hkey : t'.key = t.key) (hspec : t'.spec = t.spec) :
    Holds key tr t' c :=
  ⟨hkey.trans h.named, hspec ▸ h.read, h.self, h.base⟩

theorem core_setTaskReady (t : AgentTask) (ok : Bool) (reason msg : String) :
    (setTaskReady t ok reason msg).status.core = t.status.core := rfl

variable {phase : TaskPhase}

theorem core_setTaskPhase (t : AgentTask) (h : phase ≠ .unset) :
    (setTaskPhase t phase).status.core = { t.status.core with phase := phase } := by
  simp [setTaskPhase, AgentTaskStatus.core, h]

theorem core_closeAttempt (t : AgentTask) (reason msg : String) :
    (closeAttempt t reason msg).status.core = t.status.core.closed := rfl

theorem core_observeTask (t : AgentTask) : (observeTask t).status.core = t.status.core := by
  simp only [observeTask, AgentTaskStatus.core]
  split <;> simp_all

/-! ## Status writes -/

variable {cause : Option Cause}

theorem safe_updateTaskStatus {Q : AgentTask → History → Prop} {c' : TaskCore}
    (h : Holds key tr t c) (hkey : t'.key = t.key) (hspec : t'.spec = t.spec)
    (hcore : t'.status.core = c') (hm : TaskMove t.spec key tr c c' cause)
    (hQ : ∀ rv, Holds key (⟨.updateTaskStatus t' cause, .ok rv⟩ :: tr) { t' with rv := rv } c' →
      Q { t' with rv := rv } (⟨.updateTaskStatus t' cause, .ok rv⟩ :: tr)) :
    Safe (taskContract cfg key) Q (updateTaskStatus t' cause) tr := by
  have h' : Holds key tr t' c := h.congr hkey hspec
  obtain ⟨t₀, hread, hspec₀⟩ := h'.read
  refine Safe.perform_bind ⟨h'.named, t₀, c, hread, hspec₀, h'.base, ?_⟩ fun rv _ => hQ rv ?_
  · rw [hspec, hcore]
    exact hm
  · rw [← hcore]
    exact ⟨h'.named, ⟨t₀, .tail _ hread, hspec₀⟩, h'.self.mono (List.subset_cons_self _ tr), rfl⟩

theorem safe_finalStatus {c' : TaskCore} (h : Holds key tr t c) (hkey : t'.key = t.key)
    (hspec : t'.spec = t.spec) (hcore : t'.status.core = c')
    (hm : TaskMove t.spec key tr c c' cause) :
    Safe (taskContract cfg key) done (updateTaskStatus t' cause >>= fun _ => pure ()) tr :=
  Safe.bind (safe_updateTaskStatus (Q := done) h hkey hspec hcore hm fun _ _ => trivial)
    fun _ _ _ => trivial

variable {msg reason : String}

theorem safe_settle (hphase : phase ≠ .unset) (h : Holds key tr t c)
    (hm : ∀ now, TaskMove t.spec key (⟨.now, .ok now⟩ :: tr) c
      (t.status.core.settled phase (metaTime now)) cause) :
    Safe (taskContract cfg key) done (settle t phase reason msg cause) tr := by
  refine Safe.perform_bind trivial fun now _ => ?_
  refine safe_finalStatus (h.cons _ rfl) rfl rfl ?_ (hm now)
  simp [noteSettled, AgentTaskStatus.core, TaskCore.settled, hphase]

/-! ## Failing an attempt -/

variable {spec : AgentTaskSpec}

theorem AttemptFailed.clock (now : Time) (h : AttemptFailed spec key tr c cause) :
    AttemptFailed spec key (⟨.now, .ok now⟩ :: tr) c cause := by
  cases h with
  | early p hphase hl hready hexit => exact .early p hphase hl hready hexit
  | lost pod hphase hl hpod hmail => exact .lost pod hphase hl hpod hmail
  | report payload writers hphase hmode hr hstatus hbad =>
    exact .report payload writers hphase hmode hr hstatus hbad
  | silent hphase hmode hmail => exact .silent hphase hmode hmail
  | exit pod hphase hmode hl hpod => exact .exit pod hphase hmode hl hpod

theorem safe_ownedTaskPod {Q : Option Pod → History → Prop} {k : NamespacedName} (hk : k = key)
    (hQ : ∀ pods, Q (ownedPodIn (taskWorkload key) pods none)
      (⟨.listPods key.ns (taskPodLabels key.name), .ok pods⟩ :: tr)) :
    Safe (taskContract cfg key) Q (ownedTaskPod k) tr := by
  subst hk
  exact Safe.perform_bind ⟨rfl, rfl⟩ fun pods _ => hQ pods

theorem safe_emptyMailbox (h : Holds key tr t c) (hphase : c.phase = .failed) :
    Safe (taskContract cfg key)
      (fun _ tr' => Holds key tr' t c ∧ (taskView key tr').emptied = true)
      (emptyMailbox key) tr := by
  refine safe_attempt .notFound trivial (fun box _ => ?_) ?_ fun e he => by cases e <;> trivial
  · have h' : Holds key (⟨.get .configMap (mailboxKey key), .ok box⟩ :: tr) t c :=
      h.cons _ (by simp [taskView, TaskView.note, TaskView.read])
    by_cases hempty : box.val.data.entries.isEmpty = true
    · simp only [hempty, if_true]
      refine ⟨h', ?_⟩
      simp [taskView, TaskView.note, TaskView.read, hempty]
    · simp only [hempty]
      refine Prog.safe_perform.mpr
        ⟨⟨⟨rfl, rfl, rfl, box, .head _, rfl⟩, c, h'.base, hphase⟩, fun _ _ => ?_⟩
      exact ⟨h'.cons _ (by simp [taskView, TaskView.note]), by simp [taskView, TaskView.note]⟩
  · exact ⟨h.cons _ (by simp [taskView, TaskView.note, TaskView.read]),
      by simp [taskView, TaskView.note, TaskView.read]⟩

theorem safe_resetMailbox (h : Holds key tr t c) (hphase : c.phase = .failed) :
    Safe (taskContract cfg key)
      (fun _ tr' => Holds key tr' t c ∧
        (isAgentReported t.spec = true → (taskView key tr').emptied = true))
      (resetMailbox t) tr := by
  simp only [resetMailbox]
  split
  · rw [h.named]
    exact (safe_emptyMailbox h hphase).mono fun _ _ hx => ⟨hx.1, fun _ => hx.2⟩
  · rename_i hmode
    exact ⟨h, fun hx => absurd hx hmode⟩

theorem AttemptFailed.active (h : AttemptFailed spec key tr c cause) :
    isTerminalTaskPhase c.phase = false := by
  cases h with
  | early p hphase => rcases hphase with h | h <;> rw [h] <;> rfl
  | lost pod hphase | report payload writers hphase | silent hphase | exit pod hphase =>
    rw [hphase]; rfl

theorem safe_retry (h : Holds key tr t c) (hcore : t.status.core.closed = c.closed)
    (hf : AttemptFailed t.spec key tr c cause) (hlimit : (c.retries : Int) < t.spec.backoffLimit) :
    Safe (taskContract cfg key) done (retry t reason msg cause) tr := by
  have hclose : Safe (taskContract cfg key)
      (fun t' tr' => Holds key tr' t' c.closed ∧ t'.status.core = c.closed)
      (updateTaskStatus (closeAttempt t reason msg) cause) tr :=
    safe_updateTaskStatus h rfl rfl ((core_closeAttempt t reason msg).trans hcore)
      (.retry c cause hf hlimit) fun rv h₁ => ⟨h₁, (core_closeAttempt t reason msg).trans hcore⟩
  refine Safe.bind hclose.grows fun t' tr₁ ⟨⟨h₁, hcore₁⟩, hg₁⟩ => ?_
  refine Safe.bind (safe_ownedTaskPod (Q := fun _ tr' => Holds key tr' t' c.closed) h₁.named
    fun pods => h₁.cons _ rfl).grows fun pod tr₂ ⟨h₂, hg₂⟩ => ?_
  refine Safe.bind (safe_deleteOldPod (P := fun tr' => Holds key tr' t' c.closed)
    (fun _ => trivial) h₂ (fun _ _ => h₂.cons _ rfl) pod).grows fun _ tr₃ ⟨h₃, hg₃⟩ => ?_
  refine Safe.bind (safe_resetMailbox h₃ rfl).grows fun _ tr₄ ⟨h₄, hg₄⟩ => ?_
  refine safe_finalStatus h₄.1 rfl rfl (core_setTaskPhase t' (by decide)) ?_
  rw [hcore₁]
  have hgrown : tr <:+ tr₄ := ((hg₁.trans hg₂).trans hg₃).trans hg₄
  exact .reopen c hf.active ⟨tr, hgrown, h.base⟩ h₄.2

theorem safe_failOrRetry (h : Holds key tr t c) {artifacts : GoMap String String}
    (hcore : t.status.core = { c with artifactValues := artifacts })
    (hf : AttemptFailed t.spec key tr c cause) :
    Safe (taskContract cfg key) done (failOrRetry t reason msg cause) tr := by
  have hretries : t.status.retries = c.retries := congrArg TaskCore.retries hcore
  simp only [failOrRetry, hretries]
  split
  · rename_i hlimit
    exact safe_retry h (by rw [hcore]; rfl) hf hlimit
  · rename_i hlimit
    refine safe_settle (by decide) h fun now => ?_
    rw [hcore]
    exact .giveUp c (metaTime now) artifacts cause (hf.clock now) hlimit

/-! ## Completing -/

theorem taskView_mailbox (box : Stored .configMap) :
    taskView key (⟨.get .configMap (mailboxKey key), .ok box⟩ :: tr) =
      (taskView key tr).read box.val.data box.val.writers := by
  simp [taskView, TaskView.note]

theorem taskView_noMailbox :
    taskView key (⟨.get .configMap (mailboxKey key), .error .notFound⟩ :: tr) =
      (taskView key tr).read ∅ [] := by
  simp [taskView, TaskView.note]

theorem reads_of_view {o : Observed} {data : GoMap String String} {writers : List UID}
    (h : Holds key tr t c) (hphase : isTerminalTaskPhase c.phase = false)
    (hview : taskView key (o :: tr) = (taskView key tr).read data writers) :
    Holds key (o :: tr) t c ∧ Reads key (o :: tr) c (parseCompletion data) writers ∧
      (taskView key (o :: tr)).listed = (taskView key tr).listed := by
  refine ⟨h.cons o (by rw [hview]; rfl),
    ⟨⟨c, parseCompletion data, writers⟩, ?_, rfl, rfl, rfl, hphase⟩, by rw [hview]; rfl⟩
  rw [hview]
  simp only [TaskView.read, h.base, Option.map_some]

theorem safe_readMailbox {Q : CompletionPayload × List UID → History → Prop}
    (h : Holds key tr t c) (hphase : isTerminalTaskPhase c.phase = false)
    (hQ : ∀ payload writers o, Holds key (o :: tr) t c →
      Reads key (o :: tr) c payload writers →
      (taskView key (o :: tr)).listed = (taskView key tr).listed →
      Q (payload, writers) (o :: tr)) :
    Safe (taskContract cfg key) Q (readMailbox t.key) tr := by
  rw [h.named]
  refine safe_attempt .notFound trivial (fun box _ => ?_) ?_ fun e he => by cases e <;> trivial
  · obtain ⟨h₁, hr, hl⟩ := reads_of_view h hphase (taskView_mailbox box)
    exact hQ _ _ _ h₁ hr hl
  · obtain ⟨h₁, hr, hl⟩ := reads_of_view h hphase taskView_noMailbox
    exact hQ _ _ _ h₁ hr hl

theorem elapsed_of_timedOut {now : Time} (h : timedOut t now = true) :
    Elapsed t.spec (⟨.now, .ok now⟩ :: tr) t.status.core := by
  simp only [timedOut] at h
  split at h
  · rename_i start hs
    simp only [gt_iff_lt, Bool.and_eq_true, decide_eq_true_eq] at h
    exact ⟨now, start, .head _, hs, h.1, h.2⟩
  · cases h

theorem Elapsed.cons (o : Observed) (h : Elapsed spec tr c) : Elapsed spec (o :: tr) c := by
  obtain ⟨now, start, hm, hrest⟩ := h
  exact ⟨now, start, .tail o hm, hrest⟩

variable {pod : Option Pod}

section Completing

variable (h : Synced key tr t) (hphase : t.status.core.phase = .completing)
include h hphase

section Silent

variable (hmail : NoReport t.spec key tr t.status.core)
  (hexit : isAgentReported t.spec = false → ∃ pod, Lists key tr t.status.core pod ∧
    pod.filter (·.phase = .succeeded) = none)
include hmail hexit

theorem safe_settleTimeout (helapsed : Elapsed t.spec tr t.status.core) :
    Safe (taskContract cfg key) done (settleTimeout t) tr := by
  simp only [settleTimeout]
  split
  · rename_i hon
    exact safe_settle (by decide) h fun now =>
      .succeed _ (metaTime now) _ none hphase (.timeout hon hmail (helapsed.cons _))
  · exact safe_settle (by decide) h fun now =>
      .timeout _ (metaTime now) hphase hmail (helapsed.cons _) hexit

theorem safe_completeSilently (hf : AttemptFailed t.spec key tr t.status.core none) :
    Safe (taskContract cfg key) done
      (readClock >>= fun now =>
        if timedOut t now then settleTimeout t else failOrRetry t reason msg none) tr := by
  refine Safe.perform_bind trivial fun now _ => ?_
  split
  · rename_i htime
    exact safe_settleTimeout (h.cons _ rfl) hphase hmail hexit (elapsed_of_timedOut htime)
  · exact safe_failOrRetry (h.cons _ rfl) rfl (hf.clock now)

end Silent

theorem safe_completeByReport {payload : CompletionPayload} {writers : List UID}
    (hmode : isAgentReported t.spec = true) (hr : Reads key tr t.status.core payload writers)
    (hstatus : payload.status ≠ "") :
    Safe (taskContract cfg key) done (completeByReport t payload writers) tr := by
  simp only [completeByReport]
  split
  · rename_i hbad
    exact safe_failOrRetry h rfl (.report payload writers hphase hmode hr hstatus (.inl hbad))
  · rename_i hvalid
    split
    · rename_i hsuccess
      exact safe_settle (by decide) (h.congr rfl rfl) fun now =>
        .succeed t.status.core (metaTime now) _ _ hphase
          (.report payload writers hmode hr hsuccess (not_not.mp hvalid))
    · rename_i hfailure
      exact safe_failOrRetry (h.congr rfl rfl) rfl
        (.report payload writers hphase hmode hr hstatus (.inr hfailure))

theorem safe_driveCompleting (hl : Lists key tr t.status.core pod) :
    Safe (taskContract cfg key) done (driveCompleting t pod) tr := by
  simp only [driveCompleting]
  split
  · rename_i hmode
    refine Safe.bind (Q := fun a tr' => Synced key tr' t ∧ Reads key tr' t.status.core a.1 a.2)
      (safe_readMailbox h (by rw [hphase]; rfl) fun payload writers o ho hr _ => ⟨ho, hr⟩) ?_
    rintro ⟨payload, writers⟩ tr₁ ⟨h₁, hr⟩
    split
    · rename_i hstatus
      exact safe_completeByReport h₁ hphase hmode hr hstatus
    · rename_i hstatus
      have hmail : NoReport t.spec key tr₁ t.status.core :=
        fun _ => ⟨payload, writers, hr, not_not.mp hstatus⟩
      exact safe_completeSilently h₁ hphase hmail (fun hx => by simp [hmode] at hx)
        (.silent hphase hmode hmail)
  · rename_i hmode
    have hmode' : isAgentReported t.spec = false := by simpa using hmode
    have hmail : NoReport t.spec key tr t.status.core := fun hx => absurd hx hmode
    split
    · rename_i p hp
      obtain ⟨rfl, hsucc⟩ := Option.filter_eq_some_iff.mp hp
      exact safe_settle (by decide) h fun now =>
        .succeed _ (metaTime now) _ _ hphase (.exit p hmode' hl (by simpa using hsucc))
    · rename_i hnone
      have hf : AttemptFailed t.spec key tr t.status.core none := .exit pod hphase hmode' hl hnone
      split
      · exact safe_failOrRetry h rfl hf
      · exact safe_completeSilently h hphase hmail (fun _ => ⟨pod, hl, hnone⟩) hf

end Completing

theorem safe_enterCompleting (h : Synced key tr t) (hl : Lists key tr t.status.core pod)
    (he : EntersCompleting t.spec key tr t.status.core cause) :
    Safe (taskContract cfg key) done (enterCompleting t pod cause) tr := by
  have hnew : (setTaskPhase t .completing).status.core =
      { t.status.core with phase := .completing } := core_setTaskPhase t (by decide)
  refine Safe.bind (safe_updateTaskStatus (Q := fun t' tr' => Synced key tr' t' ∧
      t'.status.core.phase = .completing ∧ Lists key tr' t'.status.core pod)
    h rfl rfl rfl (hnew ▸ .complete _ cause he) fun rv h₁ => ⟨h₁, ?_⟩) ?_
  · exact ⟨rfl, hl⟩
  · intro t' tr₁ ⟨h₁, hphase, hl₁⟩
    exact safe_driveCompleting h₁ hphase hl₁

/-! ## Running -/

theorem ListsHere.lists (h : ListsHere key tr c pod) : Lists key tr c pod := by
  obtain ⟨c₀, hl, hretries, _⟩ := h
  exact ⟨c₀, hl, hretries⟩

theorem safe_watchRunning (h : Synced key tr t) (hphase : t.status.core.phase = .running)
    (hl : ListsHere key tr t.status.core pod) (hmail : NoReport t.spec key tr t.status.core) :
    Safe (taskContract cfg key) done (watchRunning t pod) tr := by
  refine Safe.perform_bind trivial fun now _ => ?_
  have h₁ : Synced key (⟨.now, .ok now⟩ :: tr) t := h.cons _ rfl
  split
  · rename_i htime
    exact safe_enterCompleting h₁ hl.lists (.timeout hphase hmail (elapsed_of_timedOut htime))
  · cases pod with
    | none => exact safe_failOrRetry h₁ rfl (.lost none hphase hl (.inl rfl) hmail)
    | some p =>
      dsimp only
      split
      · rename_i hfailed
        exact safe_failOrRetry h₁ rfl (.lost (some p) hphase hl (.inr hfailed.1) hmail)
      · trivial

theorem safe_driveRunning (h : Synced key tr t) (hphase : t.status.core.phase = .running)
    (hl : ListsHere key tr t.status.core pod) :
    Safe (taskContract cfg key) done (driveRunning t pod) tr := by
  simp only [driveRunning]
  split
  · rename_i hmode
    refine Safe.bind (Q := fun a tr' => Synced key tr' t ∧ Reads key tr' t.status.core a.1 a.2 ∧
      ListsHere key tr' t.status.core pod) (safe_readMailbox h (by rw [hphase]; rfl)
        fun payload writers o ho hr hlist => ⟨ho, hr, ?_⟩) ?_
    · obtain ⟨c₀, hl₀, hrest⟩ := hl
      exact ⟨c₀, hlist.trans hl₀, hrest⟩
    · rintro ⟨payload, writers⟩ tr₁ ⟨h₁, hr, hl₁⟩
      split
      · rename_i hstatus
        exact safe_enterCompleting h₁ hl₁.lists (.report payload writers hphase hmode hr hstatus)
      · rename_i hstatus
        exact safe_watchRunning h₁ hphase hl₁ fun _ => ⟨payload, writers, hr, not_not.mp hstatus⟩
  · rename_i hmode
    have hmode' : isAgentReported t.spec = false := by simpa using hmode
    have hmail : NoReport t.spec key tr t.status.core := fun hx => absurd hx hmode
    cases pod with
    | none => exact safe_watchRunning h hphase hl hmail
    | some p =>
      dsimp only
      split
      · rename_i hterm
        exact safe_enterCompleting h hl.lists (.exit p (.inr hphase) hmode' hl hterm)
      · exact safe_watchRunning h hphase hl hmail

/-! ## Provisioning -/

/-- What a pass that found no Pod carries to the creation of one. -/
structure Provisions (key : NamespacedName) (tr : History) (t : AgentTask) (cls : AgentClass) :
    Prop where
  holds : Synced key tr t
  observed : t.status.phase ≠ .unset
  phase : t.status.core.provisioning
  lists : ListsHere key tr t.status.core none
  noPod : sawNoPod (taskWorkload key) tr = true
  cls : ⟨.getClass t.spec.agentClassRef, .ok cls⟩ ∈ tr

variable {cls : AgentClass}

theorem Provisions.cons (h : Provisions key tr t cls) (o : Observed)
    (hview : taskView key (o :: tr) = taskView key tr)
    (hno : sawNoPod (taskWorkload key) (o :: tr) = sawNoPod (taskWorkload key) tr) :
    Provisions key (o :: tr) t cls where
  holds := h.holds.cons o (by rw [hview])
  observed := h.observed
  phase := h.phase
  lists := by
    obtain ⟨c₀, hl, hrest⟩ := h.lists
    exact ⟨c₀, by rw [hview]; exact hl, hrest⟩
  noPod := hno.trans h.noPod
  cls := .tail o h.cls

theorem Provisions.policyFor (h : Provisions key tr t cls) :
    PolicyFor cfg (taskWorkload key) tr
      (desiredTaskNetworkPolicy key.name cls cfg.operatorNamespace) := by
  obtain ⟨t₀, hread, hspec⟩ := h.holds.read
  exact ⟨t₀, cls, hread, by rw [← hspec]; exact h.cls, rfl⟩

theorem safe_ensureTaskCertificate (h : Provisions key tr t cls) :
    Safe (taskContract cfg key) (fun ready tr' => Provisions key tr' t cls ∧
        (ready = true → SawCertificate (taskWorkload key) tr'))
      (ensureTaskCertificate key) tr := by
  have h₁ := fun r => h.cons ⟨.get .certificate (certificateKey (taskWorkload key)), r⟩ rfl rfl
  refine safe_attempt .notFound trivial
    (fun cert _ => ⟨h₁ _, fun hready => ⟨cert, hready, .head _⟩⟩) ?_
    fun e he => by cases e <;> trivial
  refine Safe.attempt_bind ⟨rfl, rfl, rfl, (h₁ _).holds.self⟩ fun r _ => ?_
  cases r with
  | ok _ => exact ⟨(h₁ _).cons _ rfl rfl, fun hx => by cases hx⟩
  | error e => trivial

theorem safe_taskCreateIfMissing {P : History → Prop} {κ : ChildKind} {k : NamespacedName}
    {val : Child κ} (hop : MayCreate cfg (taskWorkload key) tr κ k val) (htr : P tr)
    (hP : ∀ tr κ k val r, P tr → P (⟨.create κ k val (taskWorkload key), r⟩ :: tr)) :
    Safe (taskContract cfg key) (fun _ tr' => P tr')
      (createIfMissing κ k val (taskWorkload key)) tr :=
  safe_createIfMissing ⟨rfl, hop⟩ fun r _ => hP _ _ _ _ r htr

theorem safe_ensureMailbox {P : History → Prop} (htr : P tr)
    (hP : ∀ tr κ k val r, P tr → P (⟨.create κ k val (taskWorkload key), r⟩ :: tr)) :
    Safe (taskContract cfg key) (fun _ tr' => P tr') (ensureMailbox key) tr :=
  Safe.bind (safe_taskCreateIfMissing ⟨rfl, rfl, rfl⟩ htr hP) fun _ _ h₁ =>
    Safe.bind (safe_taskCreateIfMissing trivial h₁ hP) fun _ _ h₂ =>
      safe_taskCreateIfMissing trivial h₂ hP

theorem safe_ensureTaskChildren {eff : EffectiveTaskSpec} (h : Provisions key tr t cls)
    (hcert : SawCertificate (taskWorkload key) tr) :
    Safe (taskContract cfg key) (fun _ tr' => Provisions key tr' t cls ∧
        SawCertificate (taskWorkload key) tr' ∧ SawPolicy cfg (taskWorkload key) tr')
      (ensureTaskChildren cfg t cls eff) tr := by
  -- what every create of a child keeps
  let P : History → Prop := fun tr' => Provisions key tr' t cls ∧
    SawCertificate (taskWorkload key) tr'
  have hP : ∀ tr κ k val r, P tr → P (⟨.create κ k val (taskWorkload key), r⟩ :: tr) :=
    fun _ _ _ _ _ h => ⟨h.1.cons _ rfl rfl, h.2.cons _⟩
  simp only [ensureTaskChildren, h.holds.named]
  refine Safe.bind (safe_taskCreateIfMissing (P := P) trivial ⟨h, hcert⟩ hP) fun _ tr₁ h₁ => ?_
  refine Safe.bind (Q := fun _ tr' => P tr') ?_ fun _ tr₂ h₂ => ?_
  · simp only [ensureWorkspace]
    split
    · exact safe_taskCreateIfMissing h₁.1.holds.self h₁ hP
    · exact h₁
  refine Safe.bind (Q := fun _ tr' => P tr' ∧ SawPolicy cfg (taskWorkload key) tr')
    (safe_createIfMissing ⟨rfl, rfl, h₂.1.policyFor, h₂.1.holds.self⟩
      fun r hr => ⟨hP _ _ _ _ r h₂, ?_⟩) fun _ tr₃ h₃ => ?_
  · rcases hr with rfl | rfl
    · exact .inl ⟨_, h₂.1.policyFor.cons _, .head _⟩
    · exact .inr (.inr ⟨rfl, _, h₂.1.policyFor.cons _, .head _⟩)
  split
  · exact (safe_ensureMailbox (P := fun tr' => P tr' ∧ SawPolicy cfg (taskWorkload key) tr') h₃
      fun _ _ _ _ _ hx => ⟨hP _ _ _ _ _ hx.1, hx.2.cons _⟩).mono
        fun _ _ hx => ⟨hx.1.1, hx.1.2, hx.2⟩
  · exact ⟨h₃.1.1, h₃.1.2, h₃.2⟩

theorem core_phase (h : t.status.phase ≠ .unset) : t.status.core.phase = t.status.phase := by
  simp [AgentTaskStatus.core, h]

theorem core_noteAwaiting (h : Provisions key tr t cls) :
    (noteAwaiting t).status.core = { t.status.core with phase := .provisioning } := by
  simp only [noteAwaiting, core_setTaskReady]
  split
  · rw [core_setTaskPhase t (by decide)]
  · rename_i hne
    have hprov : t.status.core.phase = .provisioning :=
      h.phase.resolve_left fun hx => hne ((core_phase h.observed).symm.trans hx)
    rw [← hprov]

theorem safe_provisionPod (h : Provisions key tr t cls) :
    Safe (taskContract cfg key) done
      (provisionPod cfg t cls (deriveEffectiveTaskSpec t.spec cls)) tr := by
  simp only [provisionPod, h.holds.named]
  refine Safe.bind (safe_ensureTaskCertificate h) fun ready tr₁ h₁ => ?_
  split
  · rename_i hready
    refine Safe.bind (safe_ensureTaskChildren h₁.1 (h₁.2 hready)) fun _ tr₂ h₂ => ?_
    obtain ⟨hp, hcert, hpolicy⟩ := h₂
    refine Safe.perform_bind
      ⟨⟨rfl, rfl, ⟨_, rfl⟩, rfl, hp.holds.self, hp.noPod, hcert, hpolicy⟩,
        t.status.core, hp.holds.base, hp.phase, rfl, hp.lists⟩
      fun pod _ => ?_
    exact safe_finalStatus (hp.holds.cons _ rfl) rfl rfl rfl
      (.created _ _ pod hp.phase hp.lists (.head _) rfl rfl)
  · refine safe_finalStatus h₁.1.holds ?_ ?_ (core_noteAwaiting h₁.1)
      (.await _ h₁.1.phase h₁.1.lists)
    · simp only [noteAwaiting]; split <;> rfl
    · simp only [noteAwaiting]; split <;> rfl

structure Watches (key : NamespacedName) (tr : History) (t : AgentTask) (p : Pod) : Prop where
  holds : Synced key tr t
  phase : t.status.core.provisioning
  lists : ListsHere key tr t.status.core (some p)

variable {p : Pod}

theorem Watches.clock (h : Watches key tr t p) (now : Time) :
    Watches key (⟨.now, .ok now⟩ :: tr) t p :=
  ⟨h.holds.cons _ rfl, h.phase, h.lists⟩

theorem safe_stampPod (h : Watches key tr t p) :
    Safe (taskContract cfg key) (fun t' tr' => Watches key tr' t' p) (stampPod t p) tr := by
  simp only [stampPod]
  split
  · rename_i hmode
    exact safe_updateTaskStatus h.holds rfl rfl rfl (.stamp _ p h.phase hmode.1 h.lists)
      fun rv h₁ => ⟨h₁, h.phase, h.lists⟩
  · exact h

theorem Watches.fail (h : Watches key tr t p) (hready : p.ready = false)
    (hexit : ¬(isAgentReported t.spec = false ∧ p.phase = .succeeded)) :
    Safe (taskContract cfg key) done (failOrRetry t reason msg none) tr :=
  safe_failOrRetry h.holds rfl (.early p h.phase h.lists hready hexit)

theorem safe_endedBeforeReady (h : Watches key tr t p) (hready : p.ready = false) :
    Safe (taskContract cfg key) done (endedBeforeReady t p) tr := by
  simp only [endedBeforeReady]
  split
  · rename_i hexit
    exact safe_enterCompleting h.holds h.lists.lists
      (.exit p (.inl h.phase) (by simpa using hexit.1) h.lists
        (by simp [hexit.2, PodPhase.terminal]))
  · rename_i hexit
    exact h.fail hready (by simpa using hexit)

theorem active_of_provisioning (h : c.provisioning) : isTerminalTaskPhase c.phase = false := by
  rcases h with hx | hx <;> rw [hx] <;> rfl

theorem safe_awaitReady (h : Watches key tr t p) (hready : p.ready = false)
    (hphase : p.phase.terminal = false) :
    Safe (taskContract cfg key) done (awaitReady t p) tr := by
  have hexit : ¬(isAgentReported t.spec = false ∧ p.phase = .succeeded) := by
    rintro ⟨_, hs⟩
    simp [hs, PodPhase.terminal] at hphase
  simp only [awaitReady]
  split
  · exact h.fail hready hexit
  · refine Safe.perform_bind trivial fun now _ => ?_
    split
    · exact (h.clock now).fail hready hexit
    · exact safe_finalStatus (h.clock now).holds rfl rfl rfl
        (.refresh _ (active_of_provisioning h.phase))

theorem safe_watchProvisioning (h : Watches key tr t p) :
    Safe (taskContract cfg key) done (watchProvisioning t p) tr := by
  refine Safe.bind (safe_stampPod h) fun t₁ tr₁ h₁ => ?_
  split
  · rename_i hready
    refine Safe.perform_bind trivial fun now _ => ?_
    exact safe_finalStatus (h₁.clock now).holds rfl rfl rfl
      (.start _ p (metaTime now) h₁.phase h₁.lists hready)
  · rename_i hready
    have hready' : p.ready = false := by simpa using hready
    split
    · exact safe_endedBeforeReady h₁ hready'
    · rename_i hphase
      exact safe_awaitReady h₁ hready' (by simpa using hphase)

/-! ## The pass -/

theorem safe_validateAndDrive (h : Provisions key tr t cls) :
    Safe (taskContract cfg key) done
      (validateAndDrive cfg t cls (deriveEffectiveTaskSpec t.spec cls) none) tr := by
  refine Safe.perform_bind trivial fun vs _ => ?_
  have h₁ : Provisions key (⟨.violations (taskWorkload t.key), .ok vs⟩ :: tr) t cls :=
    h.cons _ rfl rfl
  cases vs with
  | cons v vs =>
    exact safe_settle (by decide) h₁.holds fun now => .reject _ (metaTime now) h.phase h₁.lists
  | nil =>
    refine Safe.bind (safe_missingPullSecret (P := fun tr' => Provisions key tr' t cls)
      (fun _ _ => trivial) (fun _ _ _ hx => hx.cons _ rfl rfl) _ h₁) fun missing tr₂ h₂ => ?_
    have hrefresh : TaskMove t.spec key tr₂ t.status.core t.status.core none :=
      .refresh _ (active_of_provisioning h.phase)
    cases missing with
    | some ref => exact safe_finalStatus h₂.holds rfl rfl rfl hrefresh
    | none =>
      dsimp only
      split
      · exact safe_finalStatus h₂.holds rfl rfl rfl hrefresh
      · have hphase : t.status.phase = .pending ∨ t.status.phase = .provisioning := by
          rw [← core_phase h.observed]
          exact h.phase
        rcases hphase with hx | hx <;> simp only [drive, hx] <;> exact safe_provisionPod h₂

theorem safe_drive {eff : EffectiveTaskSpec} (h : Synced key tr t) (hobs : t.status.phase ≠ .unset)
    (hl : ListsHere key tr t.status.core pod)
    (hpod : ¬(pod.isNone ∧ (t.status.phase = .pending ∨ t.status.phase = .provisioning))) :
    Safe (taskContract cfg key) done (drive cfg t cls eff pod) tr := by
  have hphase := core_phase hobs
  have hprov : (t.status.phase = .pending ∨ t.status.phase = .provisioning) →
      Safe (taskContract cfg key) done (driveProvisioning cfg t cls eff pod) tr := by
    intro hx
    cases pod with
    | none => exact absurd ⟨rfl, hx⟩ hpod
    | some p =>
      exact safe_watchProvisioning ⟨h, by rw [TaskCore.provisioning, hphase]; exact hx, hl⟩
  simp only [drive]
  split
  · rename_i hx; exact hprov (.inl hx)
  · rename_i hx; exact hprov (.inr hx)
  · rename_i hx; exact safe_driveRunning h (hphase.trans hx) hl
  · rename_i hx; exact safe_driveCompleting h (hphase.trans hx) hl.lists
  all_goals trivial

theorem safe_reconcileActive (h : Synced key tr t) (hobs : t.status.phase ≠ .unset)
    (hlisted : (taskView key tr).listed = none)
    (hphase : isTerminalTaskPhase t.status.core.phase = false) :
    Safe (taskContract cfg key) done (reconcileActive cfg t) tr := by
  have h₁ : ∀ r, Synced key (⟨.getClass t.spec.agentClassRef, r⟩ :: tr) t := fun r => h.cons _ rfl
  simp only [reconcileActive]
  split
  · exact safe_finalStatus h rfl rfl rfl (.refresh _ hphase)
  · refine safe_attempt .notFound trivial (fun cls _ => ?_)
      (safe_finalStatus (h₁ _) rfl rfl rfl (.refresh _ hphase)) fun e he => by cases e <;> trivial
    let o : List Pod → Observed := fun pods =>
      ⟨.listPods key.ns (taskPodLabels key.name), .ok pods⟩
    refine Safe.bind (safe_ownedTaskPod (Q := fun pod tr' => Synced key tr' t ∧
      ListsHere key tr' t.status.core pod ∧ sawNoPod (taskWorkload key) tr' = pod.isNone ∧
      ⟨.getClass t.spec.agentClassRef, .ok cls⟩ ∈ tr') h.named fun pods =>
        ⟨(h₁ _).cons (o pods) rfl, ⟨t.status.core, ?_, rfl, rfl⟩, rfl, .tail _ (.head _)⟩) ?_
    · have hview : (taskView key (⟨.getClass t.spec.agentClassRef, .ok cls⟩ :: tr)).listed =
          none := hlisted
      simp only [taskView, TaskView.note] at hview ⊢
      rw [hview, h.base]
      rfl
    · intro pod tr₂ ⟨h₂, hl, hno, hcls⟩
      split
      · rename_i hx
        obtain ⟨hnone, hprov⟩ := hx
        have hpod : pod = none := by simpa using hnone
        subst hpod
        refine safe_validateAndDrive ⟨h₂, hobs, ?_, hl, hno.trans rfl, hcls⟩
        rw [TaskCore.provisioning, core_phase hobs]
        exact hprov
      · rename_i hx
        exact safe_drive h₂ hobs hl hx

theorem safe_handleTTL (h : Synced key tr t)
    (hphase : isTerminalTaskPhase t.status.core.phase = true) :
    Safe (taskContract cfg key) done (handleTTL t) tr := by
  simp only [handleTTL]
  split
  · rename_i ttl finished _ hct
    refine Safe.perform_bind trivial fun now _ => ?_
    split
    · trivial
    · have htime : t.status.core.completionTime ≠ none := by simp [AgentTaskStatus.core, hct]
      refine Safe.bind (safe_updateTaskStatus (Q := fun t' tr' => t'.key = key) (h.cons _ rfl)
        rfl rfl (core_setTaskPhase t (by decide)) (.expire _ hphase htime) fun rv h₁ => h₁.named)
        fun t' tr₁ hkey => ?_
      refine Safe.attempt_bind hkey fun r _ => ?_
      cases r with
      | ok _ => trivial
      | error e => cases e <;> trivial
  · trivial

theorem safe_reconcileHeld (h : Synced key tr t) (hobs : t.status.phase ≠ .unset)
    (hlisted : (taskView key tr).listed = none)
    (hfirst : (taskView key tr).first = some t.status.core) :
    Safe (taskContract cfg key) done (reconcileHeld cfg t) tr := by
  have hphase := core_phase hobs
  simp only [reconcileHeld]
  split
  · rename_i hx
    exact safe_finalStatus h rfl rfl (core_setTaskPhase t (by decide))
      (.resume _ ⟨hphase.trans hx.1, hx.2⟩ hfirst)
  · split
    · rename_i hterm
      exact safe_handleTTL h (by rw [hphase]; exact hterm)
    · rename_i hterm
      exact safe_reconcileActive h hobs hlisted (by rw [hphase]; simpa using hterm)

/-- A pass that read an object without the finalizer, or on its way out, and
nothing but Pod lists since. -/
theorem not_sawSelf_of_read (h : ¬(t.finalizer = true ∧ t.deletionTimestamp = none)) :
    ¬SawSelf (taskWorkload key) [⟨.getTask key, .ok t⟩] := by
  rintro ⟨t₀, hm, ht₀⟩
  cases List.mem_singleton.mp hm
  exact h ht₀

theorem safe_reconcileTaskDelete (hkey : t.key = key)
    (hdel : t.deletionTimestamp.isSome = true) :
    Safe (taskContract cfg key) done (reconcileTaskDelete t) [⟨.getTask key, .ok t⟩] := by
  have hself : ¬SawSelf (taskWorkload key) [⟨.getTask key, .ok t⟩] :=
    not_sawSelf_of_read fun hx => by simp [hx.2] at hdel
  simp only [reconcileTaskDelete]
  split
  · refine Safe.bind (safe_ownedTaskPod
      (Q := fun _ tr' => ¬SawSelf (taskWorkload key) tr') hkey ?_) fun pod tr₁ hself₁ => ?_
    · rintro pods ⟨t₀, hm, ht₀⟩
      refine hself ⟨t₀, ?_, ht₀⟩
      simpa using hm
    cases pod with
    | none => exact Safe.perform_bind ⟨hkey, hself₁⟩ fun _ _ => trivial
    | some p =>
      dsimp only
      split
      · refine Safe.attempt_bind trivial fun r _ => ?_
        cases r with
        | ok _ => trivial
        | error e => cases e <;> trivial
      · trivial
  · trivial

/-- A pass of the AgentTask reconciler does only what its contract lists. -/
theorem safe_reconcileTask (cfg : Config) (key : NamespacedName) :
    Safe (taskContract cfg key) done (reconcileTask cfg key) [] := by
  refine Safe.attempt_bind ⟨rfl, rfl⟩ fun r hr => ?_
  cases r with
  | error e => cases e <;> trivial
  | ok t =>
    have hkey : t.key = key := hr
    dsimp only
    split
    · rename_i hdel
      exact safe_reconcileTaskDelete hkey hdel
    · rename_i hdel
      split
      · rename_i hfin
        have hobs : (observeTask t).status.phase ≠ .unset := by
          simp only [observeTask]
          split
          · exact fun hx => by cases hx
          · assumption
        have hself : SawSelf (taskWorkload key) [⟨.getTask key, .ok t⟩] :=
          ⟨t, .head _, hfin, by simpa using hdel⟩
        have hbase := congrArg some (core_observeTask t).symm
        exact safe_reconcileHeld ⟨hkey, ⟨t, .head _, rfl⟩, hself, hbase⟩ hobs rfl hbase
      · rename_i hfin
        exact Safe.perform_bind ⟨hkey, not_sawSelf_of_read fun hx => hfin hx.1⟩
          fun _ _ => trivial

end Kaalm.Controller

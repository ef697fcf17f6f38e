/-
  Controller/Finished.lean --- a task whose success is known.

  KNOWN SUCCESS.  A valid success report is in the mailbox of an active task, or
  Completing was committed because the Pod had exited 0.  The outcome is not stored:
  every pass derives it again from the mailbox and the Pod, in the order of its phase.

  THE CONDITION.  What can still go wrong is an input of a later pass, or of the
  pass under way: a list that no longer shows the Pod the phase asks for, a report
  that lands behind the back of a pass that has already looked, or a second report.
-/
import Kaalm.Controller.Reports

namespace Kaalm.Controller

open Kaalm.Foundation
open Kaalm.Gateway (Time)

/-! ## Known success -/

def CompletionPayload.succeeds (p : CompletionPayload) (declared : List String) : Bool :=
  p.status == "success" && validateArtifactNames p declared == ""

def reportsSuccess (s : Cluster) (k : NamespacedName) (declared : List String) : Bool :=
  match s.children .configMap (mailboxKey k) with
  | some box => (parseCompletion box.val.data).succeeds declared
  | none => false

def Cause.isExit : Cause → Bool
  | .exitedZero _ => true
  | .report _ => false

/-- Completing, or the end, rests on a Pod of that attempt that exited 0. -/
def exitLogged (s : Cluster) (k : NamespacedName) (attempt : Nat) : Bool :=
  s.outcomes.any fun o => o.task == k && o.attempt == attempt && o.cause.isExit

/-- Success is durably known for the current attempt of a stored task. -/
def successKnown (s : Cluster) (k : NamespacedName) (t : AgentTask) : Bool :=
  if isAgentReported t.spec then
    !isTerminalTaskPhase t.status.core.phase && reportsSuccess s k t.spec.artifacts
  else t.status.core.phase == .completing && exitLogged s k t.status.retries

/-! ## The condition -/

/-- The Pod with which a task in this phase comes to its success: a Ready one while
provisioning, one that exited 0 where the exit code decides. -/
def suits (spec : AgentTaskSpec) (c : TaskCore) (pod : Option Pod) : Bool :=
  if isAgentReported spec then !decide c.provisioning || pod.any (·.ready)
  else pod.any (·.phase == .succeeded)

/-- A Pod list answered to a task whose success is known shows such a Pod. -/
def listsFinished (σ : State) (e : Event) : Bool :=
  match listing σ e with
  | some (⟨.agentTask, key⟩, pods) =>
    match σ.world.tasks key with
    | some t =>
      !successKnown σ.world key t ||
        suits t.spec t.status.core (ownedPodIn (taskWorkload key) pods none)
    | none => true
  | _ => true

/-- A pass under way will still take notice of a report that lands now: it has not
read the mailbox since its last status write, or, while provisioning, it works with
a Ready Pod.  Between the writes of a retry nothing takes notice. -/
def heeds (σ : State) (k : NamespacedName) (c : TaskCore) : Bool :=
  match c.phase with
  | .running | .completing =>
    (σ.passes (taskWorkload k)).all fun x => (taskView k x.trace).mail.isNone
  | .unset | .pending | .provisioning =>
    (σ.passes (taskWorkload k)).all fun x =>
      (taskView k x.trace).listed.all fun l => l.2.any (·.ready)
  | .failed => c.completionTime.isSome
  | .succeeded | .timedOut | .terminating => true

/-- A report that makes the mailbox a success lands where it is heeded, and no
report lands over a success. -/
def landsHeeded (σ : State) : Event → Bool
  | .env (.patch i) =>
    match σ.world.calls[i]? with
    | some call =>
      match σ.world.tasks call.task with
      | some t =>
        if reportsSuccess σ.world call.task t.spec.artifacts then
          isTerminalTaskPhase t.status.core.phase ||
            reportsSuccess (landPatch call σ.world) call.task t.spec.artifacts
        else
          !reportsSuccess (landPatch call σ.world) call.task t.spec.artifacts ||
            heeds σ call.task t.status.core
      | none => true
    | none => true
  | _ => true

/-- What the passes leave to chance goes well. -/
def successHeeded (σ : State) (e : Event) : Bool :=
  listsFinished σ e && landsHeeded σ e && mailCurrent σ e

/-! ## What a status write does to a known success -/

/-- Succeeded, or on its way out after it. -/
def TaskCore.good (c : TaskCore) : Prop :=
  c.completed = some true ∧ (c.phase = .succeeded ∨ c.phase = .terminating)

/-- Settled for good. -/
def TaskCore.over (c : TaskCore) : Prop :=
  isTerminalTaskPhase c.phase = true ∧ c.completionTime ≠ none

section Moves

variable {spec : AgentTaskSpec} {key : NamespacedName} {tr : History} {c c' : TaskCore}
  {cause : Option Cause}

theorem TaskMove.open_ (h : TaskMove spec key tr c c' cause)
    (hpassed : ∀ c, Passed key tr c → isTerminalTaskPhase c.phase = false → c.completionTime = none)
    (hopen : isTerminalTaskPhase c.phase = false → c.completionTime = none)
    (hphase : isTerminalTaskPhase c'.phase = false) : c'.completionTime = none := by
  obtain ⟨hactive, hsame⟩ | ⟨rfl, -⟩ | ⟨-, rfl, ⟨htime, -⟩ | ⟨c₀, rfl, hlive, hfrom, -⟩⟩ := h.starts
  · exact (hsame hphase).2.trans (hopen hactive)
  · cases hphase
  · exact htime
  · exact hpassed c₀ hfrom hlive

theorem TaskMove.of_completing (h : TaskMove spec key tr c c' cause)
    (hphase : c.phase = .completing) :
    c' = c ∨ (c'.retries = c.retries ∧ c'.over ∧
      (c'.good ∨ AttemptFailed spec key tr c cause ∨
        (isAgentReported spec = false → ∃ pod, Lists key tr c pod ∧
          pod.filter (·.phase = .succeeded) = none))) ∨
    (c' = c.closed ∧ AttemptFailed spec key tr c cause) := by
  have hprov : ¬c.provisioning := by
    rintro (hp | hp) <;> cases hphase.symm.trans hp
  cases h with
  | refresh => exact .inl rfl
  | resume _ hint => cases hphase.symm.trans hint.1
  | expire _ hterminal => rw [hphase] at hterminal; cases hterminal
  | reject _ _ hp | await _ hp | created _ _ _ hp | stamp _ _ hp | start _ _ _ hp =>
    exact absurd hp hprov
  | complete _ _ he =>
    rcases he.active with hp | hrun
    · exact absurd hp hprov
    · cases hphase.symm.trans hrun
  | succeed => exact .inr (.inl ⟨rfl, ⟨rfl, Option.some_ne_none _⟩, .inl ⟨rfl, .inl rfl⟩⟩)
  | timeout _ now _ _ _ hexit =>
    exact .inr (.inl ⟨rfl, ⟨rfl, Option.some_ne_none _⟩, .inr (.inr hexit)⟩)
  | retry _ _ hf => exact .inr (.inr ⟨rfl, hf⟩)
  | reopen => cases hphase
  | giveUp _ _ _ _ hf => exact .inr (.inl ⟨rfl, ⟨rfl, Option.some_ne_none _⟩, .inr (.inl hf)⟩)

/-- What the pass has in hand when the mailbox of its task holds a success. -/
structure HeedsReport (spec : AgentTaskSpec) (key : NamespacedName) (tr : History)
    (c : TaskCore) : Prop where
  mode : isAgentReported spec = true
  passed : ∀ c, Passed key tr c → isTerminalTaskPhase c.phase = false → c.completionTime = none
  whole : ¬c.interrupted
  listed : c.provisioning → ∀ c₀ pod, (taskView key tr).listed = some (c₀, pod) →
    pod.any (·.ready) = true
  mailed : c.underWay → ∀ m, (taskView key tr).mail = some m →
    m.payload.succeeds spec.artifacts = true

theorem HeedsReport.not_silent (h : HeedsReport spec key tr c) (hway : c.underWay) :
    ¬NoReport spec key tr c := by
  intro hnone
  obtain ⟨payload, writers, ⟨m, hm, -, rfl, -⟩, hempty⟩ := hnone h.mode
  have hsuccess := h.mailed hway m hm
  simp [CompletionPayload.succeeds, hempty] at hsuccess

theorem HeedsReport.not_failed (h : HeedsReport spec key tr c) :
    ¬AttemptFailed spec key tr c cause := by
  intro hf
  cases hf with
  | early p hphase hl hready =>
    obtain ⟨c₀, hlisted, -⟩ := hl
    have hany := h.listed hphase c₀ (some p) hlisted
    simp [hready] at hany
  | lost pod hphase hl hpod hmail => exact h.not_silent (.inl hphase) hmail
  | report payload writers hphase hmode hr hstatus hbad =>
    obtain ⟨m, hm, -, rfl, -⟩ := hr
    have hsuccess := h.mailed (.inr hphase) m hm
    simp only [CompletionPayload.succeeds, Bool.and_eq_true, beq_iff_eq] at hsuccess
    rcases hbad with hbad | hbad
    · exact hbad hsuccess.2
    · exact hbad hsuccess.1
  | silent hphase hmode hmail => exact h.not_silent (.inr hphase) hmail
  | exit pod hphase hmode =>
    rw [h.mode] at hmode
    cases hmode

/-- What a status write does to a task with a success in its mailbox. -/
structure Advances (c c' : TaskCore) : Prop where
  retries : c'.retries = c.retries
  whole : ¬c'.interrupted
  back : isTerminalTaskPhase c'.phase = false →
    isTerminalTaskPhase c.phase = false ∧ (c'.provisioning → c.provisioning)
  on : isTerminalTaskPhase c.phase = false → isTerminalTaskPhase c'.phase = false ∨ c'.good

theorem Advances.of_active (hr : c'.retries = c.retries)
    (hlive' : isTerminalTaskPhase c'.phase = false) (hlive : isTerminalTaskPhase c.phase = false)
    (hprov : c'.provisioning → c.provisioning) : Advances c c' where
  retries := hr
  whole := fun ⟨hfailed, _⟩ => by
    rw [hfailed] at hlive'
    cases hlive'
  back _ := ⟨hlive, hprov⟩
  on _ := .inl hlive'

theorem HeedsReport.move (h : HeedsReport spec key tr c)
    (hmove : TaskMove spec key tr c c' cause) : Advances c c' := by
  cases hmove with
  | refresh _ hphase => exact .of_active rfl hphase hphase id
  | resume _ hint => exact absurd hint h.whole
  | expire _ hphase htime =>
    refine ⟨rfl, fun hint => htime hint.2, fun hlive => (by cases hlive), fun hlive => ?_⟩
    rw [hphase] at hlive
    cases hlive
  | reject _ now hprov hl =>
    obtain ⟨c₀, hl, -⟩ := hl
    cases h.listed hprov c₀ none hl
  | await _ hprov | created _ _ _ hprov | start _ _ _ hprov =>
    exact .of_active rfl rfl (active_of_provisioning hprov) fun _ => hprov
  | stamp _ p hprov =>
    exact .of_active rfl (active_of_provisioning hprov) (active_of_provisioning hprov) id
  | complete _ _ he =>
    have hlive : isTerminalTaskPhase c.phase = false := by
      rcases he.active with hp | hrun
      · exact active_of_provisioning hp
      · rw [hrun]; rfl
    refine .of_active rfl rfl hlive ?_
    rintro (hp | hp) <;> cases hp
  | succeed =>
    refine ⟨rfl, fun hint => (by cases hint.1), fun hlive => (by cases hlive), fun _ => ?_⟩
    exact .inr ⟨rfl, .inl rfl⟩
  | timeout _ now hphase hmail => exact absurd hmail (h.not_silent (.inr hphase))
  | retry _ _ hf => exact absurd hf h.not_failed
  | reopen c₀ hlive hfrom => exact absurd ⟨rfl, h.passed c₀ hfrom hlive⟩ h.whole
  | giveUp _ _ _ _ hf => exact absurd hf h.not_failed

/-- A task that is Completing because its Pod exited 0, and still has that Pod,
stays so or succeeds. -/
theorem TaskMove.of_exit (h : TaskMove spec key tr c c' cause)
    (hmode : isAgentReported spec = false) (hphase : c.phase = .completing)
    (hlisted : ∀ c₀ pod, (taskView key tr).listed = some (c₀, pod) →
      pod.any (·.phase == .succeeded) = true) :
    c'.retries = c.retries ∧ (c'.phase = .completing ∨ c'.good) := by
  have hexited : ∀ pod : Option Pod, Lists key tr c pod →
      ¬pod.filter (·.phase = .succeeded) = none := by
    rintro pod ⟨c₀, hl, -⟩ hnone
    have hany := hlisted c₀ pod hl
    cases pod with
    | none => cases hany
    | some p =>
      simp only [Option.any_some, beq_iff_eq] at hany
      simp [hany] at hnone
  have hfailed : ¬AttemptFailed spec key tr c cause := by
    intro hf
    cases hf with
    | early p hprov => rcases hprov with hp | hp <;> cases hphase.symm.trans hp
    | lost pod hrun => cases hphase.symm.trans hrun
    | report payload writers _ hreported | silent _ hreported =>
      rw [hmode] at hreported; cases hreported
    | exit pod _ _ hl hpod => exact hexited pod hl hpod
  obtain rfl | ⟨hretries, -, hgood | hf | hexit⟩ | ⟨-, hf⟩ := h.of_completing hphase
  · exact ⟨rfl, .inl hphase⟩
  · exact ⟨hretries, .inr hgood⟩
  · exact absurd hf hfailed
  · obtain ⟨pod, hl, hnone⟩ := hexit hmode
    exact absurd hnone (hexited pod hl)
  · exact absurd hf hfailed

theorem TaskMove.of_good (h : TaskMove spec key tr c c' cause) (hgood : c.good) :
    c'.retries = c.retries ∧ c'.good := by
  obtain ⟨hcompleted, hphase⟩ := hgood
  obtain ⟨hactive, -⟩ | ⟨rfl, -⟩ | ⟨hfailed, -⟩ := h.starts
  · rcases hphase with hp | hp <;> rw [hp] at hactive <;> cases hactive
  · exact ⟨rfl, hcompleted, .inr rfl⟩
  · rcases hphase with hp | hp <;> cases hfailed.symm.trans hp

theorem TaskMove.retries_le (h : TaskMove spec key tr c c' cause) : c.retries ≤ c'.retries := by
  cases h with
  | retry => exact Nat.le_succ _
  | _ => exact Nat.le_refl _

theorem TaskMove.exits (h : TaskMove spec key tr c c' cause)
    (hpassed : ∀ c, Passed key tr c → isTerminalTaskPhase c.phase = false → c.completionTime = none)
    {a : Nat} (ha : a ≤ c.retries) (hat : a = c.retries → c.phase = .completing ∨ c.over) :
    a ≤ c'.retries ∧ (a = c'.retries → c'.phase = .completing ∨ c'.over) := by
  refine ⟨ha.trans h.retries_le, fun heq => ?_⟩
  have hsame : a = c.retries := ha.antisymm (heq ▸ h.retries_le)
  rcases hat hsame with hphase | ⟨hterminal, htime⟩
  · obtain rfl | ⟨-, hover, -⟩ | ⟨rfl, -⟩ := h.of_completing hphase
    · exact .inl hphase
    · exact .inr hover
    · exact absurd (heq.symm.trans hsame) (Nat.succ_ne_self _)
  · obtain ⟨hactive, -⟩ | ⟨rfl, -⟩ | ⟨-, -, ⟨hnone, -⟩ | ⟨c₀, rfl, hlive, hfrom, -⟩⟩ := h.starts
    · rw [hterminal] at hactive
      cases hactive
    · exact .inr ⟨rfl, htime⟩
    · exact absurd hnone htime
    · exact absurd (hpassed c₀ hfrom hlive) htime

/-- An exit is logged by a pass that works with a Pod that exited 0. -/
theorem TaskMove.logs_exit {u : UID} (h : TaskMove spec key tr c c' (some (.exitedZero u))) :
    c'.retries = c.retries ∧ (c'.phase = .completing ∨ c'.over) ∧
      ∃ c₀ p, (taskView key tr).listed = some (c₀, some p) ∧ p.phase = .succeeded := by
  generalize hcause : some (Cause.exitedZero u) = cause at h
  cases h with
  | complete _ _ he =>
    cases he with
    | exit p hphase hmode hl hpod =>
      obtain ⟨c₀, hlisted, -⟩ := hl
      unfold exitCause at hcause
      split at hcause
      · next hp => exact ⟨rfl, .inl rfl, c₀, p, hlisted, hp⟩
      · cases hcause
    | _ => cases hcause
  | succeed _ _ _ _ hphase hs =>
    cases hs with
    | exit p hmode hl hpod =>
      obtain ⟨c₀, hlisted, -⟩ := hl
      exact ⟨rfl, .inr ⟨rfl, Option.some_ne_none _⟩, c₀, p, hlisted, hpod⟩
    | _ => cases hcause
  | retry _ _ hf | giveUp _ _ _ _ hf => cases hf <;> cases hcause
  | _ => cases hcause

theorem TaskMove.completing (h : TaskMove spec key tr c c' cause)
    (hphase : c'.phase = .completing) :
    c.phase = .completing ∨ c.provisioning ∨ c.phase = .running := by
  cases h with
  | refresh => exact .inl hphase
  | complete _ _ he => exact .inr he.active
  | stamp _ p hp => exact .inr (.inl hp)
  | _ => cases hphase

end Moves

/-! ## The mailbox across a step -/

section Mailbox

variable {cfg : Config} {s s' : Cluster} {w : Workload} {tr : History} {op : Op} {e : EnvEvent}
  {k : NamespacedName} {declared : List String}

theorem reportsSuccess_eq (s : Cluster) (k : NamespacedName) (declared : List String) :
    reportsSuccess s k declared = (parseCompletion (mailOf s k).data).succeeds declared := by
  unfold reportsSuccess mailOf
  cases s.children .configMap (mailboxKey k) <;> rfl

theorem Effect.reportsSuccess (heff : Effect s op s') (hallow : (contract cfg w).allows tr op)
    (h : Controller.reportsSuccess s' k declared = true) :
    Controller.reportsSuccess s k declared = true := by
  rw [reportsSuccess_eq] at h ⊢
  rcases heff.mail hallow k with hsame | hnil
  · rwa [hsame] at h
  · rw [hnil] at h
    cases h

/-- A success in the mailbox of a task that is not in the middle of a retry stays
there. -/
theorem Effect.keeps_success {s₀ : Cluster} {t : AgentTask} (heff : Effect s op s')
    (hallow : (contract cfg w).allows tr op) (hrec : Recalls s₀ w tr s)
    (ht : s.tasks k = some t) (hphase : t.status.core.phase ≠ .failed)
    (h : Controller.reportsSuccess s k declared = true) :
    Controller.reportsSuccess s' k declared = true := by
  obtain hsame | ⟨val, owner, rfl, hnone, -⟩ | ⟨obj, cur, rfl, -, -, -⟩ :=
    heff.child .configMap (mailboxKey k)
  · simpa only [Controller.reportsSuccess, hsame] using h
  · simp only [Controller.reportsSuccess, hnone] at h
    cases h
  · cases w with
    | agent =>
      obtain ⟨hkind, -⟩ := allows_update hallow
      cases hkind
    | agentTask =>
      obtain ⟨⟨-, hk, -⟩, c, hbase, hfailed⟩ := hallow
      obtain rfl := mailboxKey_injective hk
      have hcore := hrec.base rfl c t hbase ht
      exact absurd (hcore ▸ hfailed) hphase

theorem EnvEffect.keeps_mail {t : AgentTask} (heff : EnvEffect s e s')
    (howned : ∀ box, s.children .configMap (mailboxKey k) = some box →
      box.owner = some (taskWorkload k)) (ht : s.tasks k = some t) :
    mailOf s' k = mailOf s k ∨
    ∃ i call, e = .patch i ∧ s.calls[i]? = some call ∧ call.task = k ∧
      mailOf s' k = mailOf (landPatch call s) k := by
  obtain hsame | ⟨i, call, hi, hcall, hk, hland, -⟩ | ⟨-, box, w, hbox, hw, hgone⟩ := heff.mail k
  · exact .inl hsame
  · exact .inr ⟨i, call, hi, hcall, hk, hland⟩
  · obtain rfl : w = taskWorkload k := Option.some.inj (hw.symm.trans (howned box hbox))
    have hthere : s.present (taskWorkload k) = true := by
      show (s.tasks k).isSome = true
      rw [ht]
      rfl
    rw [hthere] at hgone
    cases hgone

end Mailbox

/-! ## The invariant -/

structure Concluded (s : Cluster) : Prop where
  /-- a mailbox belongs to its task -/
  owned : ∀ k box, s.children .configMap (mailboxKey k) = some box →
    box.owner = some (taskWorkload k)
  /-- an active task has no completion time -/
  active : ∀ k t, s.tasks k = some t → isTerminalTaskPhase t.status.core.phase = false →
    t.status.core.completionTime = none
  /-- no success is in the mailbox of a task in the middle of a retry -/
  whole : ∀ k t, s.tasks k = some t → isAgentReported t.spec = true →
    reportsSuccess s k t.spec.artifacts = true → ¬t.status.core.interrupted
  /-- a logged exit is of an earlier attempt, or the attempt is Completing or over -/
  exits : ∀ o ∈ s.outcomes, o.cause.isExit = true → ∀ t, s.tasks o.task = some t →
    o.attempt ≤ t.status.core.retries ∧
      (o.attempt = t.status.core.retries →
        t.status.core.phase = .completing ∨ t.status.core.over)

/-- What a task pass has in hand about a known success. -/
structure Noticed (w : Workload) (tr : History) (s : Cluster) : Prop where
  owner : ∀ k box, ⟨.get .configMap (mailboxKey k), .ok box⟩ ∈ tr →
    box.owner = some (taskWorkload k)
  passed : ∀ c, Passed w.key tr c → isTerminalTaskPhase c.phase = false → c.completionTime = none
  listed : ∀ t c pod, s.tasks w.key = some t → successKnown s w.key t = true →
    (taskView w.key tr).listed = some (c, pod) → suits t.spec t.status.core pod = true
  mailed : ∀ t m, s.tasks w.key = some t → isAgentReported t.spec = true →
    t.status.core.underWay → reportsSuccess s w.key t.spec.artifacts = true →
    (taskView w.key tr).mail = some m → m.payload.succeeds t.spec.artifacts = true

variable {cfg : Config} {s₀ s s' : Cluster} {w : Workload} {tr : History} {op : Op} {c : Choice}
  {e : EnvEvent} {k : NamespacedName} {t : AgentTask}

theorem successKnown_congr {t' : AgentTask} (hspec : t'.spec = t.spec)
    (hstatus : t'.status = t.status) : successKnown s k t' = successKnown s k t := by
  simp only [successKnown, hspec, hstatus]

theorem successKnown_report (hmode : isAgentReported t.spec = true) :
    successKnown s k t = true ↔ isTerminalTaskPhase t.status.core.phase = false ∧
      reportsSuccess s k t.spec.artifacts = true := by
  simp [successKnown, hmode]

theorem successKnown_exit (hmode : isAgentReported t.spec = false) :
    successKnown s k t = true ↔ t.status.core.phase = .completing ∧
      exitLogged s k t.status.retries = true := by
  simp [successKnown, hmode]

variable {core : TaskCore} {pod : Option Pod}

theorem suits_report {spec : AgentTaskSpec} (hmode : isAgentReported spec = true) :
    suits spec core pod = true ↔ (core.provisioning → pod.any (·.ready) = true) := by
  by_cases hprov : core.provisioning
  · simp [suits, hmode, hprov]
  · simp [suits, hmode, hprov]

theorem suits_exit {spec : AgentTaskSpec} (hmode : isAgentReported spec = false) :
    suits spec core pod = true ↔ pod.any (·.phase == .succeeded) = true := by
  simp [suits, hmode]

theorem Noticed.heedsReport (h : Noticed (taskWorkload k) tr s) (hconc : Concluded s)
    (ht : s.tasks k = some t) (hmode : isAgentReported t.spec = true)
    (hsuccess : reportsSuccess s k t.spec.artifacts = true) :
    HeedsReport t.spec k tr t.status.core where
  mode := hmode
  passed := h.passed
  whole := hconc.whole k t ht hmode hsuccess
  listed hprov c₀ pod hl :=
    (suits_report hmode).mp (h.listed t c₀ pod ht
      ((successKnown_report hmode).mpr ⟨active_of_provisioning hprov, hsuccess⟩) hl) hprov
  mailed hway m hm := h.mailed t m ht hmode hway hsuccess hm

theorem Concluded.step (h : Concluded s)
    (howned : ∀ k box, s'.children .configMap (mailboxKey k) = some box →
      box.owner = some (taskWorkload k))
    (hfresh : ∀ k t, s.tasks k = some t → reportsSuccess s' k t.spec.artifacts = true →
      reportsSuccess s k t.spec.artifacts = true ∨ ¬t.status.core.interrupted)
    (hstep : ∀ k, TaskStep (fun w tr => Noticed w tr s) s s' k) : Concluded s' := by
  refine ⟨howned, ?_, ?_, ?_⟩
  · intro k t' ht' hphase
    obtain hleaves | ⟨tr, t, u, cause, hnoticed, hw⟩ := hstep k
    · obtain ⟨t, ht, -, hstatus⟩ := hleaves.task t' ht'
      rw [hstatus] at hphase ⊢
      exact h.active k t ht hphase
    · obtain rfl := hw.task ht'
      exact hw.move.open_ hnoticed.passed (h.active k t hw.stored) hphase
  · intro k t' ht' hmode hsuccess
    obtain hleaves | ⟨tr, t, u, cause, hnoticed, hw⟩ := hstep k
    · obtain ⟨t, ht, hspec, hstatus⟩ := hleaves.task t' ht'
      rw [hspec] at hmode hsuccess
      rw [hstatus]
      exact (hfresh k t ht hsuccess).elim (h.whole k t ht hmode) id
    · obtain rfl := hw.task ht'
      obtain rfl := hw.store
      exact ((hnoticed.heedsReport h hw.stored hmode hsuccess).move hw.move).whole
  · intro o ho hexit t' ht'
    obtain hleaves | ⟨tr, t, u, cause, hnoticed, hw⟩ := hstep o.task
    · obtain ⟨t, ht, -, hstatus⟩ := hleaves.task t' ht'
      rw [hstatus]
      exact h.exits o ((hleaves.outcomes o rfl).mp ho) hexit t ht
    · obtain rfl := hw.task ht'
      have hold : o ∈ s.outcomes → _ := fun hin => hw.move.exits hnoticed.passed
        (h.exits o hin hexit t hw.stored).1 (h.exits o hin hexit t hw.stored).2
      obtain rfl := hw.store
      obtain hin | ⟨c, rfl, rfl⟩ := mem_logOutcome.mp ho
      · exact hold hin
      · cases c with
        | report ws => cases hexit
        | exitedZero u =>
          obtain ⟨hretries, hend, -⟩ := hw.move.logs_exit
          exact ⟨hretries.ge, fun _ => hend⟩

theorem Concluded.owned_exec (h : Concluded s) (hnoticed : w.kind = .agentTask → Noticed w tr s)
    (heff : Effect s op s') (hallow : (contract cfg w).allows tr op) (k : NamespacedName)
    (box : Stored .configMap) (hbox : s'.children .configMap (mailboxKey k) = some box) :
    box.owner = some (taskWorkload k) := by
  obtain hsame | ⟨val, owner, rfl, -, hnew⟩ | ⟨obj, cur, rfl, -, -, hnew⟩ :=
    heff.child .configMap (mailboxKey k)
  · exact h.owned k box (hsame.symm.trans hbox)
  · obtain ⟨rfl, hkind, hk, -⟩ := allows_create hallow
    obtain rfl := mailboxKey_injective hk
    cases Option.some.inj (hnew.symm.trans hbox)
    obtain ⟨kind, key⟩ := owner
    cases hkind
    rfl
  · obtain ⟨hkind, -, -, cur', hread, howner⟩ := allows_update hallow
    cases Option.some.inj (hnew.symm.trans hbox)
    exact howner.trans ((hnoticed hkind).owner k cur' hread)

theorem Concluded.owned_env (h : Concluded s) (heff : EnvEffect s e s') (k : NamespacedName)
    (box : Stored .configMap) (hbox : s'.children .configMap (mailboxKey k) = some box) :
    box.owner = some (taskWorkload k) := by
  obtain hsame | ⟨i, call, box', rfl, -, -, hold, hnew⟩ | ⟨-, -, -, -, -, hnew⟩ :=
    heff.configMap (mailboxKey k)
  · exact h.owned k box (hsame.symm.trans hbox)
  · cases Option.some.inj (hnew.symm.trans hbox)
    exact h.owned k box' hold
  · rw [hnew] at hbox
    cases hbox

variable {σ : State}

/-- A success that is in the mailbox after a step of the environment was there
before, or has landed where it is heeded. -/
theorem EnvEffect.heeds (heff : EnvEffect σ.world e s') (hguard : landsHeeded σ (.env e) = true)
    (ht : σ.world.tasks k = some t) (h : Controller.reportsSuccess s' k t.spec.artifacts = true) :
    Controller.reportsSuccess σ.world k t.spec.artifacts = true ∨
      Controller.heeds σ k t.status.core = true := by
  cases hbefore : Controller.reportsSuccess σ.world k t.spec.artifacts with
  | true => exact .inl rfl
  | false =>
    obtain hsame | ⟨i, call, rfl, hcall, rfl, hland, -⟩ | ⟨hnew, -⟩ := heff.mail k
    · rw [reportsSuccess_eq, hsame, ← reportsSuccess_eq, hbefore] at h
      cases h
    · rw [reportsSuccess_eq, hland, ← reportsSuccess_eq] at h
      simp only [landsHeeded, hcall, ht, hbefore, h, Bool.false_eq_true, if_false, Bool.not_true,
        Bool.false_or] at hguard
      exact .inr hguard
    · rw [reportsSuccess_eq, hnew] at h
      cases h

theorem heeds_spec {x : Pass Op Ans ApiError}
    (hpass : σ.passes (taskWorkload k) = some x) (h : heeds σ k core = true) :
    (core.provisioning → ∀ c pod, (taskView k x.trace).listed = some (c, pod) →
      pod.any (·.ready) = true) ∧
      (core.underWay → (taskView k x.trace).mail = none) := by
  refine ⟨fun hprov c pod hl => ?_, fun hway => ?_⟩
  · rcases hprov with hp | hp <;> simpa only [heeds, hp, hpass, hl, Option.all_some] using h
  · rcases hway with hp | hp <;>
      simpa only [heeds, hp, hpass, Option.all_some, Option.isNone_iff_eq_none] using h

variable {t' : AgentTask}

theorem exists_of_exitLogged {attempt : Nat} (h : exitLogged s k attempt = true) :
    ∃ o ∈ s.outcomes, o.task = k ∧ o.attempt = attempt ∧ o.cause.isExit = true := by
  obtain ⟨o, ho, htest⟩ := List.any_eq_true.mp h
  simp only [Bool.and_eq_true, beq_iff_eq] at htest
  exact ⟨o, ho, htest.1.1, htest.1.2, htest.2⟩

theorem exitLogged_of_mem {o : Outcome} (ho : o ∈ s.outcomes) (htask : o.task = k)
    (hexit : o.cause.isExit = true) : exitLogged s k o.attempt = true := by
  refine List.any_eq_true.mpr ⟨o, ho, ?_⟩
  simp [htask, hexit]

theorem exitLogged_mono {attempt : Nat}
    (hsub : ∀ o ∈ s'.outcomes, o.task = k → o ∈ s.outcomes)
    (h : exitLogged s' k attempt = true) : exitLogged s k attempt = true := by
  obtain ⟨o, ho, htask, rfl, hexit⟩ := exists_of_exitLogged h
  exact exitLogged_of_mem (hsub o ho htask) htask hexit

/-- What a pass has noticed survives every step that writes no status of its task and
lands a success only where it is heeded. -/
theorem Noticed.leaves (h : Noticed w tr s) (hleaves : Leaves w.key s s')
    (hfresh : ∀ t, s.tasks w.key = some t → reportsSuccess s' w.key t.spec.artifacts = true →
      reportsSuccess s w.key t.spec.artifacts = true ∨
        (t.status.core.provisioning → ∀ c pod, (taskView w.key tr).listed = some (c, pod) →
          pod.any (·.ready) = true) ∧
        (t.status.core.underWay → (taskView w.key tr).mail = none)) : Noticed w tr s' where
  owner := h.owner
  passed := h.passed
  listed t' c₀ pod ht' hknown hl := by
    obtain ⟨t, ht, hspec, hstatus⟩ := hleaves.task t' ht'
    rw [successKnown_congr hspec hstatus] at hknown
    rw [hspec, hstatus]
    cases hmode : isAgentReported t.spec with
    | true =>
      obtain ⟨hphase, hsuccess⟩ := (successKnown_report hmode).mp hknown
      rcases hfresh t ht hsuccess with hbefore | hheeds
      · exact h.listed t c₀ pod ht ((successKnown_report hmode).mpr ⟨hphase, hbefore⟩) hl
      · exact (suits_report hmode).mpr fun hprov => hheeds.1 hprov c₀ pod hl
    | false =>
      obtain ⟨hphase, hexit⟩ := (successKnown_exit hmode).mp hknown
      refine h.listed t c₀ pod ht ((successKnown_exit hmode).mpr ⟨hphase, ?_⟩) hl
      exact exitLogged_mono (fun o ho htask => (hleaves.outcomes o htask).mp ho) hexit
  mailed t' m ht' hmode hway hsuccess hm := by
    obtain ⟨t, ht, hspec, hstatus⟩ := hleaves.task t' ht'
    rw [hstatus] at hway
    rw [hspec] at hmode hsuccess ⊢
    rcases hfresh t ht hsuccess with hbefore | hheeds
    · exact h.mailed t m ht hmode hway hbefore hm
    · cases hm.symm.trans (hheeds.2 hway)

theorem Noticed.listed_write {u : AgentTask} {cause : Option Cause}
    (h : Noticed (taskWorkload k) tr s) (hconc : Concluded s) (hw : Writes k tr s s' t u cause)
    (ht' : s'.tasks k = some t') {c₀ : TaskCore} (hl : (taskView k tr).listed = some (c₀, pod))
    (hknown : successKnown s' k t' = true) : suits t'.spec t'.status.core pod = true := by
  have hspec : t'.spec = t.spec := by rw [hw.task ht']
  have hmove : TaskMove t.spec k tr t.status.core t'.status.core cause := by
    rw [hw.task ht']
    exact hw.move
  obtain ⟨ht, -, -, rfl, -⟩ := hw
  rw [hspec]
  cases hmode : isAgentReported t.spec with
  | true =>
    have hmode' : isAgentReported t'.spec = true := hspec ▸ hmode
    obtain ⟨hphase, hsuccess⟩ := (successKnown_report hmode').mp hknown
    have hbefore : reportsSuccess s k t.spec.artifacts = true := hspec ▸ hsuccess
    obtain ⟨hactive, hprov⟩ := ((h.heedsReport hconc ht hmode hbefore).move hmove).back hphase
    have hsuits := h.listed t c₀ pod ht
      ((successKnown_report hmode).mpr ⟨hactive, hbefore⟩) hl
    exact (suits_report hmode).mpr fun hp => (suits_report hmode).mp hsuits (hprov hp)
  | false =>
    have hmode' : isAgentReported t'.spec = false := hspec ▸ hmode
    obtain ⟨hphase, hexit⟩ := (successKnown_exit hmode').mp hknown
    obtain ⟨o, ho, htask, hattempt, hcause⟩ := exists_of_exitLogged hexit
    -- an exit that was logged before: the task was Completing, and the list suited it
    have hold : o ∈ s.outcomes → suits t.spec t'.status.core pod = true := by
      intro hin
      obtain ⟨hle, hend⟩ := hconc.exits o hin hcause t (htask ▸ ht)
      have hretries : t'.status.retries = t.status.retries :=
        Nat.le_antisymm (hattempt ▸ hle) hmove.retries_le
      have hcompleting : t.status.core.phase = .completing := by
        rcases hend (hattempt.trans hretries) with hp | hover
        · exact hp
        · rcases hmove.completing hphase with hp | hp | hp
          · exact hp
          · have hlive := hover.1
            rcases hp with hp | hp <;> (rw [hp] at hlive; cases hlive)
          · have hlive := hover.1
            rw [hp] at hlive
            cases hlive
      have hbefore : successKnown s k t = true := by
        refine (successKnown_exit hmode).mpr ⟨hcompleting, ?_⟩
        rw [← hretries, ← hattempt]
        exact exitLogged_of_mem hin htask hcause
      exact (suits_exit hmode).mpr
        ((suits_exit hmode).mp (h.listed t c₀ pod ht hbefore hl))
    obtain hin | ⟨c, rfl, rfl⟩ := mem_logOutcome.mp ho
    · exact hold hin
    · cases c with
      | report ws => cases hcause
      | exitedZero v =>
        obtain ⟨-, -, c₁, p, hl', hp⟩ := hmove.logs_exit
        obtain ⟨-, rfl⟩ : c₁ = c₀ ∧ some p = pod := by
          simpa only [Option.some.injEq, Prod.mk.injEq] using hl'.symm.trans hl
        refine (suits_exit hmode).mpr ?_
        simp [hp]

variable {r : Except ApiError (Ans op)}

/-- What a pass has seen or written as the stored core of its task was running or settled. -/
def Orderly (key : NamespacedName) (tr : History) : Prop :=
  ∀ c, Passed key tr c → isTerminalTaskPhase c.phase = false → c.completionTime = none

theorem Orderly.cons (h : Orderly k tr)
    (hworld : ∀ k t, s'.tasks k = some t → isTerminalTaskPhase t.status.core.phase = false →
      t.status.core.completionTime = none)
    (hex : execute op c s = some (r, s')) : Orderly k (⟨op, r⟩ :: tr) := by
  intro core hpassed hactive
  obtain ⟨tr₀, hsuffix, hbase⟩ := hpassed
  rcases List.suffix_cons_iff.mp hsuffix with rfl | hold
  · have hnoted := taskView_noted k ⟨op, r⟩ tr
    generalize taskView k (⟨op, r⟩ :: tr) = v at hnoted hbase
    cases hnoted with
    | fetched _ t =>
      obtain rfl : t.status.core = core := Option.some.inj hbase
      obtain ⟨hstored, rfl⟩ := execute_getTask hex
      exact hworld _ t hstored hactive
    | wrote t cause =>
      obtain rfl : t.status.core = core := Option.some.inj hbase
      obtain ⟨cur, hcur, rfl⟩ := execute_updateTaskStatus hex
      exact hworld _ { cur with status := t.status, rv := s.revision + 1 }
        (Function.update_self ..) hactive
    | unsure => cases hbase
    | _ => exact h core ⟨tr, List.suffix_rfl, hbase⟩ hactive
  · exact h core ⟨tr₀, hold, hbase⟩ hactive

section Step

variable (h : Noticed w tr σ.world) (hkind : w.kind = .agentTask) (hconc : Concluded σ.world)
  (hline : Lineage s₀ σ.world) (hrec : Recalls s₀ w tr σ.world)
  (hguard : listsFinished σ (.exec w c) = true) (hallow : (contract cfg w).allows tr op)
  (hp : (system cfg).Performs σ w c tr op r s')
include h hkind hconc hline hrec hguard hallow hp

theorem Noticed.listed_cons {c₀ : TaskCore} (ht' : s'.tasks w.key = some t')
    (hknown : successKnown s' w.key t' = true)
    (hl : (taskView w.key (⟨op, r⟩ :: tr)).listed = some (c₀, pod)) :
    suits t'.spec t'.status.core pod = true := by
  have heff := execute_effect hp.result
  rcases TaskView.note_listed w.key (taskView w.key tr) ⟨op, r⟩ with
    hsame | ⟨ns, selector, pods, core, heq, -, -, hnew⟩
  · have hold : (taskView w.key tr).listed = some (c₀, pod) := hsame.symm.trans hl
    obtain hleaves | ⟨tr', t, u, cause, ⟨rfl, hown⟩, hw⟩ := hrec.step hline heff hallow
      (Q := fun w' tr' => tr' = tr ∧ Noticed w' tr' σ.world) (fun _ => ⟨rfl, h⟩) w.key
    · exact (h.leaves hleaves fun _ _ hs => .inl (heff.reportsSuccess hallow hs)).listed t' c₀ pod
        ht' hknown hold
    · exact hown.listed_write hconc hw ht' hold hknown
  · cases heq
    cases heff with
    | skip =>
      obtain ⟨-, rfl⟩ : core = c₀ ∧ ownedPodIn (taskWorkload w.key) pods none = pod := by
        simpa only [Option.some.injEq, Prod.mk.injEq] using hnew.symm.trans hl
      have hlisted := listing_of_performs hp
      obtain ⟨kind, key⟩ := w
      cases hkind
      simpa only [listsFinished, hlisted, ht', hknown, Bool.not_true, Bool.false_or] using hguard

theorem Noticed.cons (hread : mailCurrent σ (.exec w c) = true) (hconc' : Concluded s') :
    Noticed w (⟨op, r⟩ :: tr) s' where
  owner k box hbox := by
    rcases List.mem_cons.mp hbox with heq | hold
    · cases heq
      obtain ⟨-, -, -, -, hstored⟩ := execute_get_ok hp.result
      exact hconc.owned k box (hstored (lags_of_mailCurrent hread hp))
    · exact h.owner k box hold
  passed := Orderly.cons h.passed hconc'.active hp.result
  listed t' c₀ pod ht' hknown hl :=
    h.listed_cons hkind hconc hline hrec hguard hallow hp ht' hknown hl
  mailed t' m ht' hmode hway hsuccess hm := by
    have heff := execute_effect hp.result
    have hbefore := heff.reportsSuccess hallow hsuccess
    have hkeep : (∀ t cause, op ≠ .updateTaskStatus t cause) →
        (taskView w.key tr).mail = some m → m.payload.succeeds t'.spec.artifacts = true := by
      intro hupd hold
      obtain hleaves | ⟨u, cause, t, hop, -⟩ := heff.leaves w.key
      · exact (h.leaves hleaves fun _ _ hs => .inl (heff.reportsSuccess hallow hs)).mailed t' m ht'
          hmode hway hsuccess hold
      · exact absurd hop (hupd u cause)
    have hnoted := taskView_noted w.key ⟨op, r⟩ tr
    generalize taskView w.key (⟨op, r⟩ :: tr) = v at hnoted hm
    cases hnoted with
    | wrote | unsure => cases hm
    | read box =>
      obtain ⟨core, -, rfl⟩ := Option.map_eq_some_iff.mp hm
      obtain ⟨-, -, -, -, hstored⟩ := execute_get_ok hp.result
      simpa only [reportsSuccess, hstored (lags_of_mailCurrent hread hp)] using hbefore
    | missing =>
      have hnone := (execute_get_notFound hp.result (lags_of_mailCurrent hread hp)).1
      simp only [reportsSuccess, hnone] at hbefore
      cases hbefore
    | other _ hupd => exact hkeep hupd hm
    | _ => exact hkeep (fun _ _ hop => by cases hop) hm

end Step

theorem concluded_proof (cfg : Config) (s₀ : Cluster) :
    (system cfg).Proof (contract cfg) (fun s => Lineage s₀ s ∧ Concluded s)
      (fun w tr s => Recalls s₀ w tr s ∧ (w.kind = .agentTask → Noticed w tr s))
      (fun σ e => successHeeded σ e = true) := by
  have hsplit : ∀ {σ e}, successHeeded σ e = true →
      (listsFinished σ e = true ∧ landsHeeded σ e = true) ∧ mailCurrent σ e = true := by
    intro σ e h
    simpa only [successHeeded, Bool.and_eq_true] using h
  refine (lineage_proof cfg s₀).extend (fun _ _ _ => trivial) ?_ ?_ ?_
  · intro w s _ _ _
    refine ⟨fun _ _ h => (by cases h), ?_, fun _ _ _ _ _ h => (by cases h),
      fun _ _ _ _ _ _ h => (by cases h)⟩
    rintro core ⟨tr₀, hsuffix, hbase⟩
    rw [List.suffix_nil.mp hsuffix] at hbase
    cases hbase
  · intro σ w c tr op r s' hline hconc hrec hnoticed hguard hallow hp _
    have heff := execute_effect hp.result
    have hconc' := hconc.step (hconc.owned_exec hnoticed heff hallow)
      (fun k t _ hs => .inl (heff.reportsSuccess hallow hs))
      (hrec.step hline heff hallow hnoticed)
    exact ⟨hconc', fun hkind => (hnoticed hkind).cons hkind hconc hline hrec
      (hsplit hguard).1.1 hallow hp (hsplit hguard).2 hconc', fun w' x hne _ _ h hkind =>
        (h hkind).leaves (heff.leaves_other hallow hkind hne)
          fun _ _ hs => .inl (heff.reportsSuccess hallow hs)⟩
  · intro σ e s' _ hconc hguard he
    have heff := envStep_effect he
    have hheeds := fun k t => heff.heeds (k := k) (t := t) (hsplit hguard).1.2
    refine ⟨hconc.step (hconc.owned_env heff) (fun k t ht hs => ?_) fun k => .inl (heff.leaves k),
      fun w x hpass _ h hkind => (h hkind).leaves (heff.leaves w.key) fun t ht hs => ?_⟩
    · refine (hheeds k t ht hs).imp_right fun hheeds hint => ?_
      simp [heeds, hint.1, hint.2] at hheeds
    · obtain ⟨kind, key⟩ := w
      cases hkind
      exact (hheeds key t ht hs).imp_right (heeds_spec hpass)

theorem Fresh.concluded (h : Fresh s) : Concluded s where
  owned k box hbox := by
    rw [h.noChildren .configMap _ (by decide)] at hbox
    cases hbox
  active k t ht _ := by
    rw [h.taskStatus k t ht]
    rfl
  whole k t ht _ hsuccess := by
    simp only [reportsSuccess, h.noChildren .configMap _ (by decide)] at hsuccess
    cases hsuccess
  exits o ho := by rw [h.noOutcomes] at ho; cases ho

/-! ## Once known -/

/-- From now on the task has these retries and these Pods, and it is on its way to
Succeeded or there. -/
structure Finishing (k : NamespacedName) (retries : Nat) (pods : List Pod)
    (s : Cluster) : Prop where
  pods : podsCreatedFor s k = pods
  task : ∀ t, s.tasks k = some t → t.status.retries = retries ∧
    (successKnown s k t = true ∨ t.status.core.good)

variable {retries : Nat} {pods : List Pod}

theorem Finishing.noPod (h : Finishing k retries pods s) (hrec : Recalls s₀ (taskWorkload k) tr s)
    (hnoticed : Noticed (taskWorkload k) tr s) {tpl : PodTemplate}
    (hallow : (contract cfg (taskWorkload k)).allows tr (.createPod tpl)) : False := by
  obtain ⟨hmay, core, hbase, hprov, -, c₀, hl, -⟩ := hallow
  obtain ⟨t, ht, -⟩ := hrec.held hmay.self
  have hcore := hrec.base rfl core t hbase ht
  subst hcore
  rcases (h.task t ht).2 with hknown | hgood
  · cases hmode : isAgentReported t.spec with
    | true =>
      have hsuits := hnoticed.listed t c₀ none ht hknown hl
      have hready := (suits_report hmode).mp hsuits hprov
      cases hready
    | false =>
      obtain ⟨hphase, -⟩ := (successKnown_exit hmode).mp hknown
      rcases hprov with hp | hp <;> cases hphase.symm.trans hp
  · rcases hgood.2 with hphase | hphase <;> rcases hprov with hp | hp <;>
      cases hphase.symm.trans hp

theorem podsCreatedFor_addPod {tpl : PodTemplate} (h : tpl.owner ≠ taskWorkload k) :
    podsCreatedFor (s.addPod tpl) k = podsCreatedFor s k := by
  have hother : ¬(tpl.instantiate s.nextUID s.clock).owner = taskWorkload k := h
  simp only [podsCreatedFor, Cluster.addPod, List.filter_append, List.filter_cons,
    decide_eq_true_eq, if_neg hother, List.filter_nil, List.append_nil]

theorem Finishing.write (h : Finishing k retries pods s) (hconc : Concluded s)
    (hnoticed : Noticed (taskWorkload k) tr s) {u : AgentTask} {cause : Option Cause}
    (hw : Writes k tr s s' t u cause) : Finishing k retries pods s' where
  pods := by
    rw [hw.store]
    exact h.pods
  task t' ht' := by
    have hspec : t'.spec = t.spec := by rw [hw.task ht']
    have hmove : TaskMove t.spec k tr t.status.core t'.status.core cause := by
      rw [hw.task ht']
      exact hw.move
    obtain ⟨ht, -, -, rfl, -⟩ := hw
    obtain ⟨hretries, hknown | hgood⟩ := h.task t ht
    · cases hmode : isAgentReported t.spec with
      | true =>
        obtain ⟨hphase, hsuccess⟩ := (successKnown_report hmode).mp hknown
        have hadv := (hnoticed.heedsReport hconc ht hmode hsuccess).move hmove
        refine ⟨hadv.retries.trans hretries, (hadv.on hphase).imp_left fun hlive => ?_⟩
        refine (successKnown_report (hspec ▸ hmode)).mpr ⟨hlive, ?_⟩
        rw [hspec]
        exact hsuccess
      | false =>
        obtain ⟨hphase, hlog⟩ := (successKnown_exit hmode).mp hknown
        obtain ⟨hr, hnext⟩ := hmove.of_exit hmode hphase fun c₀ pod hl =>
          (suits_exit hmode).mp (hnoticed.listed t c₀ pod ht hknown hl)
        refine ⟨hr.trans hretries, hnext.imp_left fun hp => ?_⟩
        refine (successKnown_exit (hspec ▸ hmode)).mpr ⟨hp, ?_⟩
        have hr' : t'.status.retries = t.status.retries := hr
        rw [hr']
        exact exitLogged_mono (fun _ ho _ => mem_logOutcome.mpr (.inl ho)) hlog
    · obtain ⟨hr, hgood'⟩ := hmove.of_good hgood
      exact ⟨hr.trans hretries, .inr hgood'⟩

theorem Finishing.leaves (h : Finishing k retries pods s) (hleaves : Leaves k s s')
    (hpods : podsCreatedFor s' k = podsCreatedFor s k)
    (hmail : ∀ t, s.tasks k = some t → isTerminalTaskPhase t.status.core.phase = false →
      reportsSuccess s k t.spec.artifacts = true → reportsSuccess s' k t.spec.artifacts = true) :
    Finishing k retries pods s' where
  pods := hpods.trans h.pods
  task t' ht' := by
    obtain ⟨t, ht, hspec, hstatus⟩ := hleaves.task t' ht'
    obtain ⟨hretries, hknown⟩ := h.task t ht
    rw [successKnown_congr hspec hstatus, hstatus]
    refine ⟨hretries, hknown.imp_left fun hknown => ?_⟩
    cases hmode : isAgentReported t.spec with
    | true =>
      obtain ⟨hphase, hsuccess⟩ := (successKnown_report hmode).mp hknown
      exact (successKnown_report hmode).mpr ⟨hphase, hmail t ht hphase hsuccess⟩
    | false =>
      obtain ⟨hphase, hlog⟩ := (successKnown_exit hmode).mp hknown
      refine (successKnown_exit hmode).mpr ⟨hphase, ?_⟩
      exact exitLogged_mono (fun o ho htask => (hleaves.outcomes o htask).mpr ho) hlog

theorem Finishing.exec (h : Finishing k retries pods s) (hline : Lineage s₀ s) (hconc : Concluded s)
    (hrec : Recalls s₀ w tr s) (hnoticed : w.kind = .agentTask → Noticed w tr s)
    (heff : Effect s op s') (hallow : (contract cfg w).allows tr op) :
    Finishing k retries pods s' := by
  have hpods : podsCreatedFor s' k = podsCreatedFor s k := by
    obtain ⟨-, hsame⟩ | ⟨tpl, rfl, rfl⟩ | ⟨-, hsame⟩ := heff.pods
    · simp only [podsCreatedFor, hsame]
    · have howner := (allows_createPod hallow).owner
      refine podsCreatedFor_addPod fun htask => ?_
      obtain rfl : w = taskWorkload k := howner.symm.trans htask
      exact h.noPod hrec (hnoticed rfl) hallow
    · simp only [podsCreatedFor, hsame]
  obtain hleaves | ⟨tr, t, u, cause, hown, hw⟩ := hrec.step hline heff hallow
    (Q := fun w tr => Noticed w tr s) hnoticed k
  · refine h.leaves hleaves hpods fun t ht hphase hsuccess => ?_
    refine heff.keeps_success hallow hrec ht (fun hfailed => ?_) hsuccess
    rw [hfailed] at hphase
    cases hphase
  · exact h.write hconc hown hw

theorem Finishing.env (h : Finishing k retries pods σ.world) (hconc : Concluded σ.world)
    (hguard : landsHeeded σ (.env e) = true) (heff : EnvEffect σ.world e s') :
    Finishing k retries pods s' := by
  refine h.leaves (heff.leaves k) (by simp only [podsCreatedFor, heff.pods_move.2])
    fun t ht hphase hsuccess => ?_
  obtain hsame | ⟨i, call, rfl, hcall, rfl, hland⟩ := heff.keeps_mail (hconc.owned k) ht
  · rwa [reportsSuccess_eq, hsame, ← reportsSuccess_eq]
  · rw [reportsSuccess_eq, hland, ← reportsSuccess_eq]
    simpa only [landsHeeded, hcall, ht, hsuccess, hphase, if_true, Bool.false_or] using hguard

theorem finishing_proof (cfg : Config) (s₀ : Cluster) (k : NamespacedName) (retries : Nat)
    (pods : List Pod) :
    (system cfg).Proof (contract cfg)
      (fun s => (Lineage s₀ s ∧ Concluded s) ∧ Finishing k retries pods s)
      (fun w tr s => Recalls s₀ w tr s ∧ (w.kind = .agentTask → Noticed w tr s))
      (fun σ e => successHeeded σ e = true) := by
  refine (concluded_proof cfg s₀).keep (fun _ _ h => h) ?_ ?_
  · intro σ w c tr op r s' hinv hkept hknows _ hallow hp
    exact hkept.exec hinv.1 hinv.2 hknows.1 hknows.2 (execute_effect hp.result) hallow
  · intro σ e s' hinv hkept hguard he
    simp only [successHeeded, Bool.and_eq_true] at hguard
    exact hkept.env hinv.2 hguard.1.2 (envStep_effect he)

/-- In every run under the condition, once success is known for a task its retries
and its Pods stay what they are, and whatever terminal phase it has is Succeeded, or
Terminating after it. -/
theorem finished_task_is_not_run_again (cfg : Config) {s₀ : Cluster} (hfresh : Fresh s₀)
    {es es' : List Event} {σ σ' : State}
    (hrun : Run (system cfg).step (fun σ e => successHeeded σ e = true) (PoolSpec.idle s₀) es σ)
    {k : NamespacedName} {t : AgentTask} (ht : σ.world.tasks k = some t)
    (hknown : successKnown σ.world k t = true)
    (hrun' : Run (system cfg).step (fun σ e => successHeeded σ e = true) σ es' σ') :
    podsCreatedFor σ'.world k = podsCreatedFor σ.world k ∧
    ∀ t', σ'.world.tasks k = some t' → t'.status.retries = t.status.retries ∧
      (isTerminalTaskPhase t'.status.phase = true →
        t'.status.phase = .succeeded ∨
          (t'.status.phase = .terminating ∧ t'.status.completed.map (·.status) = some true)) := by
  have hsound := (concluded_proof cfg s₀).run hrun
    (PoolSpec.sound_idle ⟨hfresh.lineage, hfresh.concluded⟩)
  have hkept : Finishing k t.status.retries (podsCreatedFor σ.world k) σ.world := by
    refine ⟨rfl, fun t₁ ht₁ => ?_⟩
    obtain rfl : t = t₁ := Option.some.inj (ht.symm.trans ht₁)
    exact ⟨rfl, .inl hknown⟩
  have hend := (finishing_proof cfg s₀ k t.status.retries (podsCreatedFor σ.world k)).run hrun'
    ⟨⟨hsound.inv, hkept⟩, hsound.knows, hsound.safe⟩
  refine ⟨hend.inv.2.pods, fun t' ht' => ?_⟩
  obtain ⟨hretries, hcases⟩ := hend.inv.2.task t' ht'
  refine ⟨hretries, fun hterminal => ?_⟩
  have hcore : t'.status.core.phase = t'.status.phase := by
    refine if_neg fun hunset => ?_
    rw [hunset] at hterminal
    cases hterminal
  rcases hcases with hknown' | hgood
  · -- a task whose success is only known is not terminal
    exfalso
    rw [← hcore] at hterminal
    cases hmode : isAgentReported t'.spec with
    | true =>
      obtain ⟨hphase, -⟩ := (successKnown_report hmode).mp hknown'
      rw [hterminal] at hphase
      cases hphase
    | false =>
      obtain ⟨hphase, -⟩ := (successKnown_exit hmode).mp hknown'
      rw [hphase] at hterminal
      cases hterminal
  · obtain ⟨hcompleted, hphase | hphase⟩ := hgood
    · exact .inl (hcore.symm.trans hphase)
    · exact .inr ⟨hcore.symm.trans hphase, hcompleted⟩

def succeededEvents : List Event :=
  runningEvents ++ [.env (.call soloKey 1 ⟨"success", "", ∅⟩), .env (.patch 0)]

theorem finished_task_is_not_run_again_soloCluster :
    ∃ σ σ' t t', exec (guarded successHeeded (system plainConfig).step) (PoolSpec.idle soloCluster)
        succeededEvents = some σ ∧ σ.world.tasks soloKey = some t ∧
      successKnown σ.world soloKey t = true ∧
      exec (guarded successHeeded (system plainConfig).step) σ
        (passEvents (taskWorkload soloKey) 8) = some σ' ∧
      σ'.world.tasks soloKey = some t' ∧
      podsCreatedFor σ'.world soloKey = podsCreatedFor σ.world soloKey ∧
      t'.status.retries = t.status.retries := by
  have hall : ((exec (guarded successHeeded (system plainConfig).step)
      (PoolSpec.idle soloCluster) succeededEvents).bind fun σ =>
        ((σ.world.tasks soloKey).filter (successKnown σ.world soloKey)).bind fun _ =>
          (exec (guarded successHeeded (system plainConfig).step) σ
            (passEvents (taskWorkload soloKey) 8)).bind fun σ' =>
              σ'.world.tasks soloKey).isSome = true := by decide +kernel
  obtain ⟨t', hall⟩ := Option.isSome_iff_exists.mp hall
  obtain ⟨σ, hσ, hall⟩ := Option.bind_eq_some_iff.mp hall
  obtain ⟨t, ht, hall⟩ := Option.bind_eq_some_iff.mp hall
  obtain ⟨σ', hσ', ht'⟩ := Option.bind_eq_some_iff.mp hall
  obtain ⟨ht, hknown⟩ := Option.filter_eq_some_iff.mp ht
  obtain ⟨hpods, htask⟩ := finished_task_is_not_run_again plainConfig fresh_soloCluster
    (run_of_exec_guarded hσ) ht hknown (run_of_exec_guarded hσ')
  exact ⟨σ, σ', t, t', hσ, ht, hknown, hσ', ht', hpods, (htask t' ht').1⟩

def exitCluster : Cluster := plainCluster [] [plainTask soloKey .exitCode 1]

/-- The Pod exits 0, Completing is committed, and the controller crashes. -/
def exitedEvents : List Event :=
  passEvents (taskWorkload soloKey) 2 ++ passEvents (taskWorkload soloKey) 7 ++
    [.env (.issue (certificateKey (taskWorkload soloKey)))] ++
    passEvents (taskWorkload soloKey) 9 ++ [.env (.podStatus 1 .running true [])] ++
    passEvents (taskWorkload soloKey) 5 ++ [.env (.podStatus 1 .succeeded false [])] ++
    passEvents (taskWorkload soloKey) 4 ++ [.crash (taskWorkload soloKey)]

/-- The Pod is removed before the next pass, which retries; another one creates a
second Pod. -/
def exitLostEvents : List Event :=
  .env (.podGone 1) :: passEvents (taskWorkload soloKey) 7 ++ passEvents (taskWorkload soloKey) 9

theorem finished_task_run_again :
    Fresh exitCluster ∧
    Run (system plainConfig).step anyStep (PoolSpec.idle exitCluster) exitedEvents
      (reached plainConfig exitCluster exitedEvents) ∧
    (((reached plainConfig exitCluster exitedEvents).world.tasks soloKey).map fun t =>
      (t.status.phase, t.status.retries,
        successKnown (reached plainConfig exitCluster exitedEvents).world soloKey t)) =
      some (.completing, 0, true) ∧
    Run (system plainConfig).step anyStep (PoolSpec.idle exitCluster)
      (exitedEvents ++ exitLostEvents)
      (reached plainConfig exitCluster (exitedEvents ++ exitLostEvents)) ∧
    (((reached plainConfig exitCluster (exitedEvents ++ exitLostEvents)).world.tasks soloKey).map
      fun t => (t.status.phase, t.status.retries)) = some (.provisioning, 1) ∧
    (podsCreatedFor (reached plainConfig exitCluster (exitedEvents ++ exitLostEvents)).world
      soloKey).length = 2 :=
  ⟨fresh_plainCluster fun t ht => by rw [List.mem_singleton.mp ht]; rfl,
    run_any (by decide +kernel), by decide +kernel,
    run_any (by decide +kernel), by decide +kernel, by decide +kernel⟩

end Kaalm.Controller

/-
  Controller/TaskHistory.lean --- what an AgentTask pass knows, and every status
  write it can make.

  THE VIEW.  `taskView` folds a history into what the pass has in hand: the
  stored status as it last saw or wrote it, the Pod of its first list, and, since
  its last status write, the report it has read and whether the mailbox was empty.

  THE MOVES.  `TaskMove` is the state machine with all its transitions: from the
  stored core of a status to the written one, each with what the pass had seen.
  `Controller/TaskPass.lean` shows that a pass makes no other write.
-/
import Kaalm.Controller.System

namespace Kaalm.Controller

open Kaalm.Foundation
open Kaalm.Gateway (Time Duration)

/-! ## The core of a status -/

/-- The part of a task's status that drives the state machine. -/
structure TaskCore where
  phase : TaskPhase
  retries : Nat
  currentPodUID : Option UID
  startTime : Option Time
  completionTime : Option Time
  /-- status of the Completed condition -/
  completed : Option Bool
  artifactValues : GoMap String String

/-- The core; a task that was never reconciled counts as Pending. -/
def AgentTaskStatus.core (st : AgentTaskStatus) : TaskCore where
  phase := if st.phase = .unset then .pending else st.phase
  retries := st.retries
  currentPodUID := st.currentPodUID
  startTime := st.startTime
  completionTime := st.completionTime
  completed := st.completed.map (·.status)
  artifactValues := st.artifactValues

def TaskCore.provisioning (c : TaskCore) : Prop := c.phase = .pending ∨ c.phase = .provisioning

/-- Failed without a completion time: between the first and the last write of a
retry. -/
def TaskCore.interrupted (c : TaskCore) : Prop := c.phase = .failed ∧ c.completionTime = none

/-- The core after the first write of `retry`. -/
def TaskCore.closed (c : TaskCore) : TaskCore :=
  { c with
    phase := .failed, retries := c.retries + 1, currentPodUID := none, startTime := none
    artifactValues := ∅ }

/-- The core after `settle`. -/
def TaskCore.settled (c : TaskCore) (phase : TaskPhase) (now : Time) : TaskCore :=
  { c with
    phase := phase, completionTime := some now, completed := some (decide (phase = .succeeded)) }

/-! ## The view -/

/-- A report as a pass read it, and the core it worked under. -/
structure MailRead where
  core : TaskCore
  payload : CompletionPayload
  writers : List UID

/-- What a pass has in hand. -/
structure TaskView where
  /-- the stored core, as last read or written -/
  base : Option TaskCore
  /-- the core the pass started from, until its first status write -/
  first : Option TaskCore
  /-- the first Pod list: the core at that time and `ownedTaskPod` -/
  listed : Option (TaskCore × Option Pod)
  /-- the last mailbox read since the last status write -/
  mail : Option MailRead
  /-- the mailbox was seen or made empty since the last status write -/
  emptied : Bool

def TaskView.read (v : TaskView) (data : GoMap String String) (writers : List UID) : TaskView :=
  { v with
    mail := v.base.map fun c => ⟨c, parseCompletion data, writers⟩
    emptied := v.emptied || data.entries.isEmpty }

def TaskView.note (key : NamespacedName) (v : TaskView) : Observed → TaskView
  | ⟨.getTask _, .ok t⟩ => { v with base := some t.status.core, first := some t.status.core }
  | ⟨.updateTaskStatus t _, .ok _⟩ =>
    { v with base := some t.status.core, first := none, mail := none, emptied := false }
  | ⟨.updateTaskStatus _ _, .error _⟩ =>
    { v with base := none, first := none, mail := none, emptied := false }
  | ⟨.listPods _ _, .ok pods⟩ =>
    { v with
      listed := v.listed.orElse fun _ =>
        v.base.map fun c => (c, ownedPodIn (taskWorkload key) pods none) }
  | ⟨.get .configMap k, .ok box⟩ =>
    if k = mailboxKey key then v.read box.val.data box.val.writers else v
  | ⟨.get .configMap k, .error .notFound⟩ => if k = mailboxKey key then v.read ∅ [] else v
  | ⟨.update .configMap k _, .ok _⟩ =>
    if k = mailboxKey key then { v with emptied := true } else v
  | _ => v

/-- What an observation does to the view, case by case. -/
inductive TaskView.Noted (key : NamespacedName) (v : TaskView) : Observed → TaskView → Prop
  | fetched (k : NamespacedName) (t : AgentTask) : v.Noted key ⟨.getTask k, .ok t⟩
      { v with base := some t.status.core, first := some t.status.core }
  | wrote (t : AgentTask) (cause : Option Cause) (u : Ans (.updateTaskStatus t cause)) :
      v.Noted key ⟨.updateTaskStatus t cause, .ok u⟩
        { v with base := some t.status.core, first := none, mail := none, emptied := false }
  | unsure (t : AgentTask) (cause : Option Cause) (e : ApiError) :
      v.Noted key ⟨.updateTaskStatus t cause, .error e⟩
        { v with base := none, first := none, mail := none, emptied := false }
  | listed (ns : String) (selector : Labels) (pods : List Pod) :
      v.Noted key ⟨.listPods ns selector, .ok pods⟩
        { v with
          listed := v.listed.orElse fun _ =>
            v.base.map fun c => (c, ownedPodIn (taskWorkload key) pods none) }
  | read (box : Stored .configMap) : v.Noted key ⟨.get .configMap (mailboxKey key), .ok box⟩
      (v.read box.val.data box.val.writers)
  | missing : v.Noted key ⟨.get .configMap (mailboxKey key), .error .notFound⟩ (v.read ∅ [])
  | emptied (obj : Stored .configMap) (u : Ans (.update .configMap (mailboxKey key) obj)) :
      v.Noted key ⟨.update .configMap (mailboxKey key) obj, .ok u⟩ { v with emptied := true }
  | other (o : Observed) (hupd : ∀ t cause, o.op ≠ .updateTaskStatus t cause) : v.Noted key o v

theorem TaskView.noted (key : NamespacedName) (v : TaskView) (o : Observed) :
    v.Noted key o (v.note key o) := by
  unfold TaskView.note
  split
  · exact .fetched _ _
  · exact .wrote _ _ _
  · exact .unsure _ _ _
  · exact .listed _ _ _
  · split
    · next hk => subst hk; exact .read _
    · exact .other _ fun _ _ hop => by cases hop
  · split
    · next hk => subst hk; exact .missing
    · exact .other _ fun _ _ hop => by cases hop
  · split
    · next hk => subst hk; exact .emptied _ _
    · exact .other _ fun _ _ hop => by cases hop
  · next hok herror _ _ _ _ =>
    refine .other _ fun t cause hop => ?_
    obtain ⟨op, r⟩ := o
    subst hop
    cases r with
    | ok u => exact hok t cause u rfl
    | error e => exact herror t cause e rfl

def taskView (key : NamespacedName) : History → TaskView
  | [] => ⟨none, none, none, none, false⟩
  | o :: tr => (taskView key tr).note key o

theorem taskView_noted (key : NamespacedName) (o : Observed) (tr : History) :
    (taskView key tr).Noted key o (taskView key (o :: tr)) :=
  TaskView.noted key (taskView key tr) o

/-! ## Moves -/

section Moves

variable (spec : AgentTaskSpec) (key : NamespacedName) (tr : History)

/-- The Pod the pass works with, listed under the same attempt and phase group. -/
def Lists (c : TaskCore) (pod : Option Pod) : Prop :=
  ∃ c₀, (taskView key tr).listed = some (c₀, pod) ∧ c₀.retries = c.retries

/-- The Pod the pass works with, listed while the task was in the phase it is in. -/
def ListsHere (c : TaskCore) (pod : Option Pod) : Prop :=
  ∃ c₀, (taskView key tr).listed = some (c₀, pod) ∧ c₀.retries = c.retries ∧
    c₀.phase = c.phase

/-- The report the pass works with, read in a phase that is not terminal. -/
def Reads (c : TaskCore) (payload : CompletionPayload) (writers : List UID) : Prop :=
  ∃ m, (taskView key tr).mail = some m ∧ m.core.retries = c.retries ∧
    m.payload = payload ∧ m.writers = writers ∧ isTerminalTaskPhase m.core.phase = false

/-- No report was found, in a task that completes by report. -/
def NoReport (c : TaskCore) : Prop :=
  isAgentReported spec = true → ∃ payload writers, Reads key tr c payload writers ∧
    payload.status = ""

/-- A core the pass has seen or written earlier, as the stored one. -/
def Passed (c : TaskCore) : Prop := ∃ tr₀, tr₀ <:+ tr ∧ (taskView key tr₀).base = some c

/-- The timeout has elapsed on the clock the pass read. -/
def Elapsed (c : TaskCore) : Prop :=
  ∃ now start, ⟨.now, .ok now⟩ ∈ tr ∧ c.startTime = some start ∧ spec.timeout > 0 ∧
    now - start > spec.timeout

/-- Why a pass gives an attempt up. -/
inductive AttemptFailed (c : TaskCore) : Option Cause → Prop
  /-- the Pod ended, waits for something that cannot heal, or is overdue -/
  | early (p : Pod) (hphase : c.provisioning) (hl : ListsHere key tr c (some p))
      (hready : p.ready = false)
      (hexit : ¬(isAgentReported spec = false ∧ p.phase = .succeeded)) : AttemptFailed c none
  /-- the Pod was lost while Running -/
  | lost (pod : Option Pod) (hphase : c.phase = .running) (hl : ListsHere key tr c pod)
      (hpod : pod = none ∨ isAgentReported spec = true)
      (hmail : NoReport spec key tr c) : AttemptFailed c none
  /-- the report does not match the declared artifacts, or reports a failure -/
  | report (payload : CompletionPayload) (writers : List UID) (hphase : c.phase = .completing)
      (hmode : isAgentReported spec = true) (hr : Reads key tr c payload writers)
      (hstatus : payload.status ≠ "")
      (hbad : validateArtifactNames payload spec.artifacts ≠ "" ∨ payload.status ≠ "success") :
      AttemptFailed c (some (.report writers))
  /-- Completing without a report -/
  | silent (hphase : c.phase = .completing) (hmode : isAgentReported spec = true)
      (hmail : NoReport spec key tr c) : AttemptFailed c none
  /-- Completing without a Pod that exited 0 -/
  | exit (pod : Option Pod) (hphase : c.phase = .completing)
      (hmode : isAgentReported spec = false) (hl : Lists key tr c pod)
      (hpod : pod.filter (·.phase = .succeeded) = none) : AttemptFailed c none

/-- Why a pass settles Succeeded, with the artifact values it records. -/
inductive AttemptSucceeded (c : TaskCore) : GoMap String String → Option Cause → Prop
  | report (payload : CompletionPayload) (writers : List UID)
      (hmode : isAgentReported spec = true) (hr : Reads key tr c payload writers)
      (hstatus : payload.status = "success")
      (hvalid : validateArtifactNames payload spec.artifacts = "") :
      AttemptSucceeded c payload.artifacts (some (.report writers))
  | exit (p : Pod) (hmode : isAgentReported spec = false) (hl : Lists key tr c (some p))
      (hpod : p.phase = .succeeded) :
      AttemptSucceeded c c.artifactValues (some (.exitedZero p.uid))
  | timeout (hon : spec.onTimeout = .succeed) (hmail : NoReport spec key tr c)
      (helapsed : Elapsed spec tr c) : AttemptSucceeded c c.artifactValues none

/-- Why a pass commits Completing. -/
inductive EntersCompleting (c : TaskCore) : Option Cause → Prop
  | report (payload : CompletionPayload) (writers : List UID) (hphase : c.phase = .running)
      (hmode : isAgentReported spec = true) (hr : Reads key tr c payload writers)
      (hstatus : payload.status ≠ "") : EntersCompleting c none
  | exit (p : Pod) (hphase : c.provisioning ∨ c.phase = .running)
      (hmode : isAgentReported spec = false) (hl : ListsHere key tr c (some p))
      (hpod : p.phase.terminal = true) : EntersCompleting c (exitCause p)
  | timeout (hphase : c.phase = .running) (hmail : NoReport spec key tr c)
      (helapsed : Elapsed spec tr c) : EntersCompleting c none

/-- A status write: the stored core, the written core, and the ghost cause. -/
inductive TaskMove : TaskCore → TaskCore → Option Cause → Prop
  /-- conditions only -/
  | refresh (c : TaskCore) (hphase : isTerminalTaskPhase c.phase = false) : TaskMove c c none
  /-- a broken-off retry is resumed by a later pass -/
  | resume (c : TaskCore) (h : c.interrupted) (hfirst : (taskView key tr).first = some c) :
      TaskMove c { c with phase := .provisioning } none
  /-- the time to live has passed -/
  | expire (c : TaskCore) (hphase : isTerminalTaskPhase c.phase = true)
      (htime : c.completionTime ≠ none) : TaskMove c { c with phase := .terminating } none
  /-- a cross-check failed before there was a Pod -/
  | reject (c : TaskCore) (now : Time) (hphase : c.provisioning)
      (hl : ListsHere key tr c none) : TaskMove c (c.settled .failed now) none
  /-- the certificate is awaited -/
  | await (c : TaskCore) (hphase : c.provisioning) (hl : ListsHere key tr c none) :
      TaskMove c { c with phase := .provisioning } none
  /-- the Pod was created -/
  | created (c : TaskCore) (tpl : PodTemplate) (p : Pod) (hphase : c.provisioning)
      (hl : ListsHere key tr c none) (hp : ⟨.createPod tpl, .ok p⟩ ∈ tr)
      (howner : tpl.owner = taskWorkload key) (hattempt : tpl.attempt = c.retries) :
      TaskMove c
        { c with
          phase := .provisioning
          currentPodUID := if isAgentReported spec then some p.uid else c.currentPodUID } none
  /-- the observed Pod is made the current one -/
  | stamp (c : TaskCore) (p : Pod) (hphase : c.provisioning)
      (hmode : isAgentReported spec = true) (hl : ListsHere key tr c (some p)) :
      TaskMove c { c with currentPodUID := some p.uid } none
  /-- the Pod is Ready -/
  | start (c : TaskCore) (p : Pod) (now : Time) (hphase : c.provisioning)
      (hl : ListsHere key tr c (some p)) (hready : p.ready = true) :
      TaskMove c { c with phase := .running, startTime := some now } none
  | complete (c : TaskCore) (cause : Option Cause) (h : EntersCompleting spec key tr c cause) :
      TaskMove c { c with phase := .completing } cause
  | succeed (c : TaskCore) (now : Time) (artifacts : GoMap String String) (cause : Option Cause)
      (hphase : c.phase = .completing) (h : AttemptSucceeded spec key tr c artifacts cause) :
      TaskMove c { c.settled .succeeded now with artifactValues := artifacts } cause
  | timeout (c : TaskCore) (now : Time) (hphase : c.phase = .completing)
      (hmail : NoReport spec key tr c) (helapsed : Elapsed spec tr c)
      (hexit : isAgentReported spec = false → ∃ pod, Lists key tr c pod ∧
        pod.filter (·.phase = .succeeded) = none) :
      TaskMove c (c.settled .timedOut now) none
  /-- the first write of a retry -/
  | retry (c : TaskCore) (cause : Option Cause) (h : AttemptFailed spec key tr c cause)
      (hlimit : (c.retries : Int) < spec.backoffLimit) : TaskMove c c.closed cause
  /-- the last write of a retry -/
  | reopen (c : TaskCore) (hphase : isTerminalTaskPhase c.phase = false) (hfrom : Passed key tr c)
      (hempty : isAgentReported spec = true → (taskView key tr).emptied = true) :
      TaskMove c.closed { c.closed with phase := .provisioning } none
  /-- no retry is left -/
  | giveUp (c : TaskCore) (now : Time) (artifacts : GoMap String String) (cause : Option Cause)
      (h : AttemptFailed spec key tr c cause)
      (hlimit : ¬(c.retries : Int) < spec.backoffLimit) :
      TaskMove c { c.settled .failed now with artifactValues := artifacts } cause

end Moves

/-- A status write of a pass of the task `key`. -/
structure MayWriteStatus (key : NamespacedName) (tr : History) (t : AgentTask)
    (cause : Option Cause) : Prop where
  named : t.key = key
  move : ∃ (t₀ : AgentTask) (c : TaskCore), ⟨.getTask key, .ok t₀⟩ ∈ tr ∧ t.spec = t₀.spec ∧
    (taskView key tr).base = some c ∧ TaskMove t.spec key tr c t.status.core cause

def taskAllows (cfg : Config) (key : NamespacedName) (tr : History) : Op → Prop
  | .getAgent _ => False
  | .updateAgent _ => False
  | .updateAgentStatus _ => False
  | .getTask k => k = key ∧ tr = []
  | .updateTask t => t.key = key ∧ ¬SawSelf (taskWorkload key) tr
  | .updateTaskStatus t cause => MayWriteStatus key tr t cause
  | .deleteTask k => k = key
  | .create κ k val owner => owner = taskWorkload key ∧ MayCreate cfg (taskWorkload key) tr κ k val
  | .update κ k obj =>
    MayUpdate cfg (taskWorkload key) tr κ k obj ∧
      ∃ c, (taskView key tr).base = some c ∧ c.phase = .failed
  | .createPod tpl =>
    MayCreatePod cfg (taskWorkload key) tr tpl ∧
      ∃ c, (taskView key tr).base = some c ∧ c.provisioning ∧ tpl.attempt = c.retries ∧
        ListsHere key tr c none
  | .listPods ns sel => ns = key.ns ∧ sel = taskPodLabels key.name
  | _ => True

def taskContract (cfg : Config) (key : NamespacedName) : Contract Op Ans ApiError where
  answers := honest
  allows := taskAllows cfg key

end Kaalm.Controller

/-
  Controller/Reports.lean --- which attempt a completion report counts for.

  THE GATE.  The gateway compares the calling Pod with `status.currentPodUID` and
  patches the mailbox some time later; the reconciler closes the gate, deletes the
  Pod and empties the mailbox in three writes.  Every outcome that rests on a report is
  logged with the Pods whose reports the mailbox held and the attempt it ended.

  THE CONDITION.  A report counts for its own attempt as long as no patch lands
  after the gate was closed to its caller, no broken-off retry is resumed over a
  mailbox that was not emptied, no Pod of an earlier attempt is stamped again, and
  no mailbox is read from a cache that lags.
-/
import Kaalm.Controller.Attempts

namespace Kaalm.Controller

open Kaalm.Foundation
open Kaalm.Gateway (TaskCompleteRequest handleTaskComplete patchMailbox completionData)

/-! ## Mailboxes -/

def mailWriters (s : Cluster) (k : NamespacedName) : List UID :=
  match s.children .configMap (mailboxKey k) with
  | some box => box.val.writers
  | none => []

def mailboxEmpty (s : Cluster) (k : NamespacedName) : Bool :=
  match s.children .configMap (mailboxKey k) with
  | some box => box.val.data.entries.isEmpty
  | none => true

/-- What is in it, or nothing where it is missing. -/
def mailOf (s : Cluster) (k : NamespacedName) : Mailbox :=
  ((s.children .configMap (mailboxKey k)).map (·.val)).getD ⟨∅, []⟩

theorem mailWriters_eq (s : Cluster) (k : NamespacedName) :
    mailWriters s k = (mailOf s k).writers := by
  unfold mailWriters mailOf
  cases s.children .configMap (mailboxKey k) <;> rfl

theorem mailboxEmpty_eq (s : Cluster) (k : NamespacedName) :
    mailboxEmpty s k = (mailOf s k).data.entries.isEmpty := by
  unfold mailboxEmpty mailOf
  cases s.children .configMap (mailboxKey k) <;> rfl

theorem mailboxKey_injective {k k' : NamespacedName} (h : mailboxKey k = mailboxKey k') :
    k = k' := by
  obtain ⟨ns, name⟩ := k
  obtain ⟨ns', name'⟩ := k'
  simp only [mailboxKey, Kaalm.Gateway.completionMailboxName, NamespacedName.mk.injEq] at h
  obtain ⟨rfl, hname⟩ := h
  have hlist := congrArg String.toList hname
  rw [String.toList_append, String.toList_append] at hlist
  rw [String.toList_inj.mp (List.append_cancel_right hlist)]

theorem entries_insert_ne_nil (m : GoMap String String) (k v : String) :
    (m.insert k v).entries ≠ [] := by
  exact List.cons_ne_nil _ _

theorem foldl_insert_ne_nil (f : Sigma (fun _ : String => String) → String)
    (entries : List (Sigma fun _ : String => String)) (m : GoMap String String)
    (h : m.entries ≠ []) : (entries.foldl (fun m e => m.insert (f e) e.2) m).entries ≠ [] := by
  induction entries generalizing m with
  | nil => exact h
  | cons e rest ih => exact ih _ (entries_insert_ne_nil m (f e) e.2)

theorem completionData_ne_nil (req : TaskCompleteRequest) : (completionData req).entries ≠ [] := by
  refine foldl_insert_ne_nil _ _ _ ?_
  split
  · exact entries_insert_ne_nil _ _ _
  · exact entries_insert_ne_nil _ _ _

theorem data_of_handleTaskComplete {task : Option AgentTask} {caller : Option UID}
    {req : TaskCompleteRequest} {data : GoMap String String}
    (h : handleTaskComplete task caller req = .ok data) : data = completionData req := by
  unfold handleTaskComplete at h
  split at h
  · cases h
  · repeat' (split at h; · cases h)
    cases hsizes : Kaalm.Gateway.artifactSizes req with
    | error e => rw [hsizes] at h; cases h
    | ok u => rw [hsizes] at h; cases h; rfl

theorem patchMailbox_ne_nil (box : Mailbox) (caller : UID) {data : GoMap String String}
    (h : data.entries ≠ []) : (patchMailbox box caller data).data.entries ≠ [] := by
  unfold patchMailbox
  cases hdata : data.entries with
  | nil => exact absurd hdata h
  | cons e rest => exact foldl_insert_ne_nil (·.1) rest _ (entries_insert_ne_nil _ e.1 e.2)

/-! ## What a pass has in hand -/

theorem base_of_first (key : NamespacedName) (tr : History) (c : TaskCore)
    (h : (taskView key tr).first = some c) : (taskView key tr).base = some c := by
  induction tr with
  | nil => cases h
  | cons o tr ih =>
    have hnoted := taskView_noted key o tr
    generalize taskView key (o :: tr) = v at hnoted h ⊢
    cases hnoted with
    | fetched => exact h
    | wrote | unsure => cases h
    | _ => exact ih h

/-! ## What a status write does to reports -/

variable {spec : AgentTaskSpec} {key : NamespacedName} {tr : History} {c c' : TaskCore}
  {cause : Option Cause}

theorem EntersCompleting.active (h : EntersCompleting spec key tr c cause) :
    c.provisioning ∨ c.phase = .running := by
  cases h with
  | report payload writers hphase => exact .inr hphase
  | exit p hphase => exact hphase
  | timeout hphase => exact .inr hphase

/-- Moves by where they start: an active task, a task whose time to live has passed,
a retry that is ended. -/
theorem TaskMove.starts (h : TaskMove spec key tr c c' cause) :
    (isTerminalTaskPhase c.phase = false ∧
      (isTerminalTaskPhase c'.phase = false →
        c'.retries = c.retries ∧ c'.completionTime = c.completionTime)) ∨
    (c' = { c with phase := .terminating } ∧ isTerminalTaskPhase c.phase = true ∧
      c.completionTime ≠ none) ∨
    (c.phase = .failed ∧ c' = { c with phase := .provisioning } ∧
      ((c.completionTime = none ∧ (taskView key tr).first = some c) ∨
        ∃ c₀, c = c₀.closed ∧ isTerminalTaskPhase c₀.phase = false ∧ Passed key tr c₀ ∧
          (isAgentReported spec = true → (taskView key tr).emptied = true))) := by
  cases h with
  | refresh _ hphase => exact .inl ⟨hphase, fun _ => ⟨rfl, rfl⟩⟩
  | resume _ hint hfirst => exact .inr (.inr ⟨hint.1, rfl, .inl ⟨hint.2, hfirst⟩⟩)
  | expire _ hphase htime => exact .inr (.inl ⟨rfl, hphase, htime⟩)
  | reject _ now hp => exact .inl ⟨active_of_provisioning hp, fun hlive => by cases hlive⟩
  | await _ hp | created _ tpl p hp | stamp _ p hp | start _ p now hp =>
    exact .inl ⟨active_of_provisioning hp, fun _ => ⟨rfl, rfl⟩⟩
  | complete _ _ he =>
    refine .inl ⟨?_, fun _ => ⟨rfl, rfl⟩⟩
    rcases he.active with hp | hrun
    · exact active_of_provisioning hp
    · rw [hrun]; rfl
  | succeed _ _ _ _ hphase | timeout _ _ hphase =>
    exact .inl ⟨by rw [hphase]; rfl, fun hlive => by cases hlive⟩
  | retry _ _ hf | giveUp _ _ _ _ hf => exact .inl ⟨hf.active, fun hlive => by cases hlive⟩
  | reopen c₀ hlive hfrom hempty =>
    exact .inr (.inr ⟨rfl, rfl, .inr ⟨c₀, rfl, hlive, hfrom, hempty⟩⟩)

/-- The current Pod after a write is the one before, the one just created, or the
one a provisioning pass was given. -/
theorem TaskMove.gate (h : TaskMove spec key tr c c' cause) {u : UID}
    (hu : c'.currentPodUID = some u) :
    c'.retries = c.retries ∧
      (c.currentPodUID = some u ∨
        (∃ tpl p, ⟨.createPod tpl, .ok p⟩ ∈ tr ∧ tpl.owner = taskWorkload key ∧
          tpl.attempt = c.retries ∧ p.uid = u) ∨
        (∃ p, c.provisioning ∧ ListsHere key tr c (some p) ∧ p.uid = u)) := by
  cases h with
  | created _ tpl p hp hl hmade howner hattempt =>
    refine ⟨rfl, ?_⟩
    by_cases hmode : isAgentReported spec = true
    · simp only [hmode, if_true, Option.some.injEq] at hu
      exact .inr (.inl ⟨tpl, p, hmade, howner, hattempt, hu⟩)
    · rw [if_neg hmode] at hu
      exact .inl hu
  | stamp _ p hp hmode hl => exact ⟨rfl, .inr (.inr ⟨p, hp, hl, Option.some.inj hu⟩)⟩
  | retry => cases hu
  | _ => exact ⟨rfl, .inl hu⟩

theorem TaskMove.interrupted (h : TaskMove spec key tr c c' cause) (hc' : c'.interrupted) :
    c'.currentPodUID = none := by
  obtain ⟨hphase, htime⟩ := hc'
  cases h with
  | refresh _ hlive =>
    rw [hphase] at hlive
    cases hlive
  | retry => rfl
  | stamp _ p hp =>
    rcases hp with h | h <;> cases h.symm.trans hphase
  | giveUp | reject => cases htime
  | _ => cases hphase

theorem TaskMove.report {ws : List UID}
    (h : TaskMove spec key tr c c' (some (.report ws))) :
    isAgentReported spec = true ∧ ∃ payload, Reads key tr c payload ws := by
  have hfailed : AttemptFailed spec key tr c (some (.report ws)) →
      isAgentReported spec = true ∧ ∃ payload, Reads key tr c payload ws := by
    intro hf
    cases hf with
    | report payload _ hphase hmode hr => exact ⟨hmode, payload, hr⟩
  generalize hcause : some (Cause.report ws) = cause at h
  cases h with
  | complete _ _ he =>
    cases he with
    | exit p hphase hmode hl hpod =>
      unfold exitCause at hcause
      split at hcause <;> cases hcause
    | _ => cases hcause
  | succeed _ _ _ _ hphase hs =>
    cases hs with
    | report payload writers hmode hr =>
      cases hcause
      exact ⟨hmode, payload, hr⟩
    | _ => cases hcause
  | retry _ _ hf | giveUp _ _ _ _ hf => exact hfailed (hcause ▸ hf)
  | _ => cases hcause

/-! ## The condition -/

/-- A patch lands only while its caller is still the current Pod of the task. -/
def landsOpen (σ : State) : Event → Bool
  | .env (.patch i) =>
    match σ.world.calls[i]? with
    | some c =>
      match σ.world.tasks c.task with
      | some t => t.status.currentPodUID == some c.caller
      | none => true
    | none => true
  | _ => true

/-- A pass that reads a task in the middle of a retry finds its mailbox empty. -/
def resumesEmpty (σ : State) : Event → Bool
  | .exec w _ =>
    match σ.passes w with
    | some ⟨_, .call (.getTask k) _⟩ =>
      match σ.world.tasks k with
      | some t =>
        !(t.status.phase == .failed && t.status.completionTime.isNone) ||
          mailboxEmpty σ.world k
      | none => true
    | _ => true
  | _ => true

def mailCurrent (σ : State) : Event → Bool
  | .exec w c =>
    match σ.passes w with
    | some ⟨_, .call (.get .configMap k) _⟩ => !lags σ.world (.get .configMap k) c
    | _ => true
  | _ => true

/-- What the identity gate leaves to chance goes well. -/
def reportsInTime (σ : State) (e : Event) : Bool :=
  listsCurrent σ e && landsOpen σ e && resumesEmpty σ e && mailCurrent σ e

/-! ## The invariant -/

structure Reported (s : Cluster) : Prop where
  /-- a pending call carries something -/
  calls : ∀ c ∈ s.calls, c.data.entries ≠ []
  /-- nobody has written into an empty mailbox -/
  clean : ∀ k, mailboxEmpty s k = true → mailWriters s k = []
  /-- the gate is open to a Pod of the current attempt -/
  gate : ∀ k t u, s.tasks k = some t → t.status.currentPodUID = some u →
    AttemptOf s k u t.status.retries
  /-- and to nobody between the writes of a retry -/
  shut : ∀ k t, s.tasks k = some t → t.status.core.interrupted → t.status.currentPodUID = none
  /-- what is in the mailbox of an active task is of the current attempt -/
  current : ∀ k t, s.tasks k = some t → isAgentReported t.spec = true →
    isTerminalTaskPhase t.status.core.phase = false →
    ∀ u ∈ mailWriters s k, AttemptOf s k u t.status.retries
  /-- and so was every report an outcome rests on -/
  logged : ∀ o ∈ s.outcomes, ∀ ws, o.cause = .report ws → ∀ u ∈ ws,
    AttemptOf s o.task u o.attempt

structure Opened (w : Workload) (tr : History) (s : Cluster) : Prop where
  /-- a mailbox emptied behind a closed gate is empty -/
  emptied : ∀ c t, s.tasks w.key = some t → (taskView w.key tr).emptied = true →
    (taskView w.key tr).base = some c → c.phase = .failed → c.currentPodUID = none →
    mailWriters s w.key = []
  /-- so is the mailbox of a retry that is resumed -/
  resumed : ∀ c t, s.tasks w.key = some t → (taskView w.key tr).first = some c →
    c.interrupted → mailWriters s w.key = []
  /-- a report was read in the attempt of its authors -/
  read : ∀ m t, s.tasks w.key = some t → isAgentReported t.spec = true →
    (taskView w.key tr).mail = some m → isTerminalTaskPhase m.core.phase = false →
    ∀ u ∈ m.writers, AttemptOf s w.key u m.core.retries

variable {cfg : Config} {s₀ s s' : Cluster} {w : Workload} {op : Op} {c : Choice} {e : EnvEvent}
  {k : NamespacedName}

theorem Effect.mail (heff : Effect s op s') (hallow : (contract cfg w).allows tr op)
    (k : NamespacedName) : mailOf s' k = mailOf s k ∨ mailOf s' k = ⟨∅, []⟩ := by
  obtain hsame | ⟨val, owner, rfl, -, hnew⟩ | ⟨obj, cur, rfl, -, -, hnew⟩ :=
    heff.child .configMap (mailboxKey k)
  · exact .inl (by simp only [mailOf, hsame])
  · obtain ⟨-, -, -, rfl⟩ := allows_create hallow
    exact .inr (by simp only [mailOf, hnew]; rfl)
  · obtain ⟨-, -, hval, -⟩ := allows_update hallow
    exact .inr (by simp only [mailOf, hnew, Option.map_some, Option.getD_some, hval])

theorem EnvEffect.mail (heff : EnvEffect s e s') (k : NamespacedName) :
    mailOf s' k = mailOf s k ∨
    (∃ i call, e = .patch i ∧ s.calls[i]? = some call ∧ call.task = k ∧
      mailOf s' k = mailOf (landPatch call s) k ∧
      mailOf s' k = patchMailbox (mailOf s k) call.caller call.data) ∨
    (mailOf s' k = ⟨∅, []⟩ ∧ ∃ box w, s.children .configMap (mailboxKey k) = some box ∧
      box.owner = some w ∧ s.present w = false) := by
  obtain hsame | ⟨i, call, box, rfl, hcall, hk, hbox, hnew⟩ | ⟨box, w, hbox, hw, hgone, hnew⟩ :=
    heff.configMap (mailboxKey k)
  · exact .inl (by simp only [mailOf, hsame])
  · exact .inr (.inl ⟨i, call, rfl, hcall, mailboxKey_injective hk,
      by simp only [mailOf, landPatch, hk, hbox, putChild_self, hnew],
      by simp only [mailOf, hnew, hbox]; rfl⟩)
  · exact .inr (.inr ⟨by simp only [mailOf, hnew]; rfl, box, w, hbox, hw, hgone⟩)

theorem Effect.mailWriters_subset (heff : Effect s op s')
    (hallow : (contract cfg w).allows tr op) (k : NamespacedName) :
    mailWriters s' k ⊆ mailWriters s k := by
  rw [mailWriters_eq, mailWriters_eq]
  rcases heff.mail hallow k with hsame | hnil
  · rw [hsame]; exact fun _ h => h
  · rw [hnil]; exact List.nil_subset _

theorem Effect.mailWriters_clean (heff : Effect s op s')
    (hallow : (contract cfg w).allows tr op)
    (hclean : mailboxEmpty s k = true → mailWriters s k = [])
    (hempty : mailboxEmpty s' k = true) : mailWriters s' k = [] := by
  rw [mailboxEmpty_eq, mailWriters_eq] at *
  rcases heff.mail hallow k with hsame | hnil
  · rw [hsame] at hempty ⊢
    exact hclean hempty
  · rw [hnil]

variable {t u : AgentTask}

theorem Reported.gate_write (h : Reported s) (hw : Writes k tr s s' t u cause)
    (hsees : Sees (taskWorkload k) tr s) (hpicks : Picks (taskWorkload k) tr s) {uid : UID}
    (hu : u.status.currentPodUID = some uid) : AttemptOf s k uid u.status.retries := by
  obtain ⟨hretries, hsame | ⟨tpl, p, hmade, howner, hattempt, rfl⟩ | ⟨p, hprov, hl, rfl⟩⟩ :=
    hw.move.gate hu
  all_goals
    have hr : u.status.retries = t.status.retries := hretries
    rw [hr]
  · exact h.gate k t uid hw.stored hsame
  · obtain ⟨htemplate, hp⟩ := hsees.made tpl p hmade
    exact ⟨p, hp, rfl, (congrArg PodTemplate.owner htemplate).trans howner,
      (congrArg PodTemplate.attempt htemplate).trans hattempt⟩
  · obtain ⟨c₀, hlisted, hc₀, hphase⟩ := hl
    have hc₀' : c₀.retries = t.status.retries := hc₀
    rw [← hc₀']
    refine attempt_of_listed hsees hpicks rfl
      (by show (s.tasks k).isSome = true; rw [hw.stored]; rfl)
      hlisted ?_
    rw [TaskCore.provisioning, hphase]
    exact hprov

theorem Reported.current_write (h : Reported s) (hw : Writes k tr s s' t u cause)
    (hopened : Opened (taskWorkload k) tr s) (hmode : isAgentReported t.spec = true)
    (hphase : isTerminalTaskPhase u.status.core.phase = false) :
    ∀ uid ∈ mailWriters s k, AttemptOf s k uid u.status.retries := by
  have hnone : mailWriters s k = [] → ∀ uid ∈ mailWriters s k,
    AttemptOf s k uid u.status.retries := by
    intro hnil uid hu
    rw [hnil] at hu
    cases hu
  obtain ⟨hactive, hsame⟩ | ⟨hexpired, -⟩ |
    ⟨hfailed, -, ⟨htime, hfirst⟩ | ⟨c₀, hclosed, -, -, hempty⟩⟩ := hw.move.starts
  · have hr : u.status.retries = t.status.retries := (hsame hphase).1
    rw [hr]
    exact h.current k t hw.stored hmode hactive
  · rw [hexpired] at hphase
    cases hphase
  · exact hnone (hopened.resumed _ t hw.stored hfirst ⟨hfailed, htime⟩)
  · refine hnone (hopened.emptied _ t hw.stored (hempty hmode) hw.base hfailed ?_)
    rw [hclosed]
    rfl

/-- Across every step that leaves the rest of the mailboxes in order and adds to them
only what the current Pod has sent. -/
theorem Reported.step (h : Reported s) (hsub : s.created ⊆ s'.created)
    (hcalls : ∀ c ∈ s'.calls, c.data.entries ≠ [])
    (hclean : ∀ k, mailboxEmpty s' k = true → mailWriters s' k = [])
    (hmail : ∀ k t, s.tasks k = some t → ∀ u ∈ mailWriters s' k,
      u ∈ mailWriters s k ∨ t.status.currentPodUID = some u)
    (hstep : ∀ k, TaskStep (fun w tr => (Sees w tr s ∧ Picks w tr s) ∧ Opened w tr s) s s' k) :
    Reported s' := by
  refine ⟨hcalls, hclean, ?_, ?_, ?_, ?_⟩
  · intro k t' u ht' hu
    obtain hleaves | ⟨tr, t, v, cause, ⟨hpods, -⟩, hw⟩ := hstep k
    · obtain ⟨t, ht, -, hstatus⟩ := hleaves.task t' ht'
      rw [hstatus] at hu ⊢
      exact (h.gate k t u ht hu).mono hsub
    · obtain rfl := hw.task ht'
      exact (h.gate_write hw hpods.1 hpods.2 hu).mono hsub
  · intro k t' ht' hint
    obtain hleaves | ⟨tr, t, v, cause, -, hw⟩ := hstep k
    · obtain ⟨t, ht, -, hstatus⟩ := hleaves.task t' ht'
      rw [hstatus] at hint ⊢
      exact h.shut k t ht hint
    · obtain rfl := hw.task ht'
      exact hw.move.interrupted hint
  · intro k t' ht' hmode hphase u hu
    obtain hleaves | ⟨tr, t, v, cause, ⟨-, hopened⟩, hw⟩ := hstep k
    · obtain ⟨t, ht, hspec, hstatus⟩ := hleaves.task t' ht'
      rw [hstatus] at hphase ⊢
      rcases hmail k t ht u hu with hold | hcurrent
      · exact (h.current k t ht (hspec ▸ hmode) hphase u hold).mono hsub
      · exact (h.gate k t u ht hcurrent).mono hsub
    · obtain rfl := hw.task ht'
      obtain rfl := hw.store
      exact (h.current_write hw hopened hmode hphase u hu).mono hsub
  · intro o ho ws hcause u hu
    have hold : o ∈ s.outcomes → _ := fun hin => (h.logged o hin ws hcause u hu).mono hsub
    obtain hleaves | ⟨tr, t, v, cause, ⟨-, hopened⟩, hw⟩ := hstep o.task
    · exact hold ((hleaves.outcomes o rfl).mp ho)
    · obtain rfl := hw.store
      obtain hin | ⟨c, rfl, rfl⟩ := mem_logOutcome.mp ho
      · exact hold hin
      · obtain rfl : c = .report ws := hcause
        obtain ⟨hmode, payload, m, hm, hretries, -, rfl, hlive⟩ := hw.move.report
        have hread := hopened.read m t hw.stored hmode hm hlive u hu
        rw [hretries] at hread
        exact hread.mono hsub

/-- What is in a mailbox after a step of the environment was there before, or was
sent by the caller of a call that lands. -/
theorem EnvEffect.mailWriters (heff : EnvEffect s e s') {u : UID}
    (hu : u ∈ Controller.mailWriters s' k) :
    u ∈ Controller.mailWriters s k ∨
    ∃ i call, e = .patch i ∧ s.calls[i]? = some call ∧ call.task = k ∧ call.caller = u := by
  rw [mailWriters_eq] at hu ⊢
  obtain hsame | ⟨i, call, rfl, hcall, hk, -, hnew⟩ | ⟨hnew, -⟩ := heff.mail k
  · exact .inl (hsame ▸ hu)
  · rw [hnew] at hu
    rcases List.mem_cons.mp hu with rfl | hold
    · exact .inr ⟨i, call, rfl, hcall, hk, rfl⟩
    · exact .inl hold
  · rw [hnew] at hu
    cases hu

theorem EnvEffect.mailWriters_clean (heff : EnvEffect s e s')
    (hcalls : ∀ c ∈ s.calls, c.data.entries ≠ [])
    (hclean : mailboxEmpty s k = true → Controller.mailWriters s k = [])
    (hempty : mailboxEmpty s' k = true) : Controller.mailWriters s' k = [] := by
  rw [mailboxEmpty_eq, mailWriters_eq] at *
  obtain hsame | ⟨i, call, rfl, hcall, -, -, hnew⟩ | ⟨hnew, -⟩ := heff.mail k
  · rw [hsame] at hempty ⊢
    exact hclean hempty
  · rw [hnew, List.isEmpty_iff] at hempty
    exact absurd hempty (patchMailbox_ne_nil _ _ (hcalls call (List.mem_of_getElem? hcall)))
  · rw [hnew]

theorem EnvEffect.mail_open {σ : State} (heff : EnvEffect σ.world e s')
    (hguard : landsOpen σ (.env e) = true) (k : NamespacedName) (t : AgentTask)
    (ht : σ.world.tasks k = some t) (u : UID) (hu : u ∈ Controller.mailWriters s' k) :
    u ∈ Controller.mailWriters σ.world k ∨ t.status.currentPodUID = some u := by
  obtain hold | ⟨i, call, rfl, hcall, rfl, rfl⟩ := heff.mailWriters hu
  · exact .inl hold
  · exact .inr (by simpa only [landsOpen, hcall, ht, beq_iff_eq] using hguard)

theorem EnvEffect.calls_nonempty (heff : EnvEffect s e s')
    (h : ∀ c ∈ s.calls, c.data.entries ≠ []) : ∀ c ∈ s'.calls, c.data.entries ≠ [] := by
  intro call hcall
  rcases heff.calls hcall with hold | ⟨req, hdata⟩
  · exact h call hold
  · rw [data_of_handleTaskComplete hdata]
    exact completionData_ne_nil req

/-- What a pass knows survives every step that adds to its mailbox only what the
current Pod has sent: there is none behind a closed gate. -/
theorem Opened.step (h : Opened w tr s) (hkind : w.kind = .agentTask) (hrep : Reported s)
    (hrec : Recalls s₀ w tr s) (hsub : s.created ⊆ s'.created)
    (htask : ∀ t', s'.tasks w.key = some t' → ∃ t, s.tasks w.key = some t ∧ t'.spec = t.spec)
    (hmail : ∀ t, s.tasks w.key = some t → ∀ u ∈ mailWriters s' w.key,
      u ∈ mailWriters s w.key ∨ t.status.currentPodUID = some u) : Opened w tr s' := by
  have hnil : ∀ t, s.tasks w.key = some t → t.status.currentPodUID = none →
      mailWriters s w.key = [] → mailWriters s' w.key = [] := by
    intro t ht hshut hnil
    refine List.eq_nil_iff_forall_not_mem.mpr fun u hu => ?_
    rcases hmail t ht u hu with hold | hopen
    · rw [hnil] at hold
      cases hold
    · cases hshut.symm.trans hopen
  constructor
  · intro core t' ht' hemptied hbase hphase hgate
    obtain ⟨t, ht, -⟩ := htask t' ht'
    obtain rfl := hrec.base hkind core t hbase ht
    exact hnil t ht hgate (h.emptied _ t ht hemptied hbase hphase hgate)
  · intro core t' ht' hfirst hint
    obtain ⟨t, ht, -⟩ := htask t' ht'
    obtain rfl := hrec.base hkind core t (base_of_first w.key tr core hfirst) ht
    exact hnil t ht (hrep.shut w.key t ht hint) (h.resumed _ t ht hfirst hint)
  · intro m t' ht' hmode hm hlive u hu
    obtain ⟨t, ht, hspec⟩ := htask t' ht'
    exact (h.read m t ht (hspec ▸ hmode) hm hlive u hu).mono hsub

theorem lags_of_mailCurrent {σ : State} {r : Except ApiError (Stored .configMap)}
    (h : mailCurrent σ (.exec w c) = true)
    (hp : (system cfg).Performs σ w c tr (.get .configMap k) r s') :
    lags σ.world (.get .configMap k) c = false := by
  obtain ⟨⟨rest, hpass⟩, -⟩ := hp
  simpa only [mailCurrent, hpass, Bool.not_eq_true'] using h

theorem mailWriters_of_resumesEmpty {σ : State} {r : Except ApiError AgentTask}
    (hrep : Reported σ.world) (h : resumesEmpty σ (.exec w c) = true)
    (hp : (system cfg).Performs σ w c tr (.getTask k) r s') (ht : σ.world.tasks k = some t)
    (hint : t.status.core.interrupted) : mailWriters σ.world k = [] := by
  obtain ⟨⟨rest, hpass⟩, -⟩ := hp
  obtain ⟨hphase, htime⟩ := hint
  have hfailed : t.status.phase = .failed := by
    have : (if t.status.phase = .unset then TaskPhase.pending else t.status.phase) = .failed :=
      hphase
    split at this
    · cases this
    · exact this
  have hnone : t.status.completionTime = none := htime
  refine hrep.clean k ?_
  simpa [resumesEmpty, hpass, ht, hfailed, hnone] using h

theorem Opened.cons {σ : State} {r : Except ApiError (Ans op)} (h : Opened w tr σ.world)
    (hkind : w.kind = .agentTask) (hrep : Reported σ.world) (hrec : Recalls s₀ w tr σ.world)
    (hguard : resumesEmpty σ (.exec w c) = true) (hread : mailCurrent σ (.exec w c) = true)
    (hallow : (contract cfg w).allows tr op)
    (hp : (system cfg).Performs σ w c tr op r s') : Opened w (⟨op, r⟩ :: tr) s' := by
  have hex : execute op c σ.world = some (r, s') := hp.result
  have heff := execute_effect hex
  have htask : ∀ t', s'.tasks w.key = some t' →
      ∃ t, σ.world.tasks w.key = some t ∧ t'.spec = t.spec := fun t' ht' =>
    (heff.task ht').imp fun _ h => ⟨h.1, h.2.2.1⟩
  have hmail : mailWriters σ.world w.key = [] → mailWriters s' w.key = [] :=
    fun hnil => List.subset_nil.mp (hnil ▸ heff.mailWriters_subset hallow w.key)
  constructor
  · intro core t' ht' hemptied hbase hphase hgate
    obtain ⟨t, ht, -⟩ := htask t' ht'
    have hnoted := taskView_noted w.key ⟨op, r⟩ tr
    generalize taskView w.key (⟨op, r⟩ :: tr) = v at hnoted hemptied hbase
    cases hnoted with
    | fetched k =>
      obtain ⟨-, rfl⟩ := allows_getTask hallow
      cases hemptied
    | wrote | unsure => cases hemptied
    | listed | other => exact hmail (h.emptied core t ht hemptied hbase hphase hgate)
    | read box =>
      obtain ⟨rfl, -, -, -, hstored⟩ := execute_get_ok hex
      replace hstored := hstored (lags_of_mailCurrent hread hp)
      rcases Bool.or_eq_true_iff.mp hemptied with hold | hbox
      · exact h.emptied core t ht hold hbase hphase hgate
      · exact hrep.clean w.key (by simpa only [mailboxEmpty, hstored] using hbox)
    | missing =>
      obtain ⟨hnone, rfl⟩ := execute_get_notFound hex (lags_of_mailCurrent hread hp)
      simp only [mailWriters, hnone]
    | emptied obj =>
      obtain ⟨-, -, hval, -⟩ := allows_update hallow
      rw [execute_update hex]
      simp only [mailWriters, putChild_self, hval]
  · intro core t' ht' hfirst hint
    obtain ⟨t, ht, -⟩ := htask t' ht'
    have hnoted := taskView_noted w.key ⟨op, r⟩ tr
    generalize taskView w.key (⟨op, r⟩ :: tr) = v at hnoted hfirst
    cases hnoted with
    | fetched k t₁ =>
      obtain rfl : t₁.status.core = core := Option.some.inj hfirst
      obtain ⟨rfl, -⟩ := allows_getTask hallow
      obtain ⟨hstored, -⟩ := execute_getTask hex
      exact hmail (mailWriters_of_resumesEmpty hrep hguard hp hstored hint)
    | wrote | unsure => cases hfirst
    | _ => exact hmail (h.resumed core t ht hfirst hint)
  · intro m t' ht' hmode hm hlive u hu
    obtain ⟨t, ht, hspec⟩ := htask t' ht'
    have hnoted := taskView_noted w.key ⟨op, r⟩ tr
    generalize taskView w.key (⟨op, r⟩ :: tr) = v at hnoted hm
    cases hnoted with
    | read box =>
      obtain ⟨core, hbase, rfl⟩ := Option.map_eq_some_iff.mp hm
      obtain ⟨rfl, -, -, -, hstored⟩ := execute_get_ok hex
      obtain rfl := hrec.base hkind core t hbase ht
      refine hrep.current w.key t ht (hspec ▸ hmode) hlive u ?_
      simpa only [mailWriters, hstored (lags_of_mailCurrent hread hp)] using hu
    | missing =>
      obtain ⟨core, -, rfl⟩ := Option.map_eq_some_iff.mp hm
      cases hu
    | wrote | unsure => cases hm
    | _ => exact (h.read m t ht (hspec ▸ hmode) hm hlive u hu).mono heff.created_subset

/-- Under the condition, what is in a mailbox was written in the attempt it counts
for. -/
theorem reported_proof (cfg : Config) (s₀ : Cluster) :
    (system cfg).Proof (contract cfg)
      (fun s => ((Lineage s₀ s ∧ Minted s) ∧ Counted s) ∧ Reported s)
      (fun w tr s => ((Recalls s₀ w tr s ∧ Sees w tr s) ∧ Picks w tr s) ∧
        (w.kind = .agentTask → Opened w tr s))
      (fun σ e => reportsInTime σ e = true) := by
  have hsplit : ∀ {σ e}, reportsInTime σ e = true →
      listsCurrent σ e = true ∧ landsOpen σ e = true ∧ resumesEmpty σ e = true ∧
        mailCurrent σ e = true := by
    intro σ e h
    simp only [reportsInTime, Bool.and_eq_true] at h
    exact ⟨h.1.1.1, h.1.1.2, h.1.2, h.2⟩
  refine (counted_proof cfg s₀).extend (fun σ e h => (hsplit h).1) ?_ ?_ ?_
  · intro w s _ _ _
    exact ⟨fun _ _ _ h => (by cases h), fun _ _ _ h => (by cases h),
      fun _ _ _ _ h => (by cases h)⟩
  · intro σ w c tr op r s' hinv hrep hknows hopened hguard hallow hp _
    obtain ⟨⟨hline, -⟩, -⟩ := hinv
    obtain ⟨⟨hrec, hsees⟩, hpicks⟩ := hknows
    have heff := execute_effect hp.result
    refine ⟨hrep.step heff.created_subset (heff.calls.symm ▸ hrep.calls)
        (fun k => heff.mailWriters_clean hallow (hrep.clean k))
        (fun k _ _ u hu => .inl (heff.mailWriters_subset hallow k hu))
        (hrec.step hline heff hallow fun hkind => ⟨⟨hsees, hpicks⟩, hopened hkind⟩),
      fun hkind => (hopened hkind).cons hkind hrep hrec (hsplit hguard).2.2.1
        (hsplit hguard).2.2.2 hallow hp,
      fun w' x _ _ hk h hkind => (h hkind).step hkind hrep hk.1.1 heff.created_subset
        (fun t' ht' => (heff.task ht').imp fun _ h => ⟨h.1, h.2.2.1⟩)
        fun _ _ u hu => .inl (heff.mailWriters_subset hallow w'.key hu)⟩
  · intro σ e s' hinv hrep hguard he
    have heff := envStep_effect he
    have hopen := heff.mail_open (hsplit hguard).2.1
    exact ⟨hrep.step heff.created_subset (heff.calls_nonempty hrep.calls)
        (fun k => heff.mailWriters_clean hrep.calls (hrep.clean k)) hopen
        (fun k => .inl (heff.leaves k)),
      fun w x _ hk h hkind => (h hkind).step hkind hrep hk.1.1 heff.created_subset
        (fun t' ht' => (heff.task ht').imp fun _ h => ⟨h.1, h.2.spec⟩) (hopen w.key)⟩

theorem Fresh.reported (h : Fresh s) : Reported s where
  calls c hc := by rw [h.noCalls] at hc; cases hc
  clean k _ := by simp only [mailWriters, h.noChildren .configMap _ (by decide)]
  gate k t u ht hu := by
    rw [h.taskStatus k t ht] at hu
    cases hu
  shut k t ht _ := by
    rw [h.taskStatus k t ht]
    rfl
  current k t ht _ _ u hu := by
    simp only [mailWriters, h.noChildren .configMap _ (by decide)] at hu
    cases hu
  logged o ho := by rw [h.noOutcomes] at ho; cases ho

/-- In every run under the condition, an outcome that rests on a report rests on
reports of Pods of the attempt it ends. -/
theorem report_counts_for_its_attempt (cfg : Config) {s₀ : Cluster} (hfresh : Fresh s₀)
    {es : List Event} {σ : State}
    (hrun : Run (system cfg).step (fun σ e => reportsInTime σ e = true) (PoolSpec.idle s₀) es σ)
    {o : Outcome} (ho : o ∈ σ.world.outcomes) {ws : List UID} (hcause : o.cause = .report ws)
    {p : Pod} (hp : p ∈ σ.world.created) (hauthor : p.uid ∈ ws) :
    p.owner = taskWorkload o.task ∧ p.attempt = o.attempt := by
  have hsound := (reported_proof cfg s₀).run hrun (PoolSpec.sound_idle
    ⟨⟨⟨hfresh.lineage, hfresh.minted⟩, hfresh.counted⟩, hfresh.reported⟩)
  obtain ⟨⟨⟨-, hminted⟩, -⟩, hreported⟩ := hsound.inv
  obtain ⟨q, hq, huid, howner, hattempt⟩ := hreported.logged o ho ws hcause p.uid hauthor
  obtain rfl := hminted.unique q hq p hp huid
  exact ⟨howner, hattempt⟩

def runningEvents : List Event :=
  soloEvents ++ List.replicate 2 (.exec (taskWorkload soloKey) .ok) ++
    [.env (.podStatus 1 .running true [])] ++ passEvents (taskWorkload soloKey) 5

/-- The Pod reports success, the report lands, and the task settles. -/
def reportedEvents : List Event :=
  runningEvents ++ [.env (.call soloKey 1 ⟨"success", "", ∅⟩), .env (.patch 0)] ++
    passEvents (taskWorkload soloKey) 8

theorem report_counts_for_its_attempt_soloCluster :
    ∃ σ, exec (guarded reportsInTime (system plainConfig).step) (PoolSpec.idle soloCluster)
        reportedEvents = some σ ∧ ⟨soloKey, 0, .report [1]⟩ ∈ σ.world.outcomes ∧
      ∀ p ∈ σ.world.created, p.uid ∈ [1] → p.owner = taskWorkload soloKey ∧ p.attempt = 0 := by
  have hlog : (exec (guarded reportsInTime (system plainConfig).step) (PoolSpec.idle soloCluster)
      reportedEvents).map (·.world.outcomes) = some [⟨soloKey, 0, .report [1]⟩] := by
    decide +kernel
  obtain ⟨σ, hσ, hlog⟩ := Option.map_eq_some_iff.mp hlog
  have hmem : ⟨soloKey, 0, .report [1]⟩ ∈ σ.world.outcomes := by
    rw [hlog]
    exact .head _
  exact ⟨σ, hσ, hmem, fun p hp hauthor => report_counts_for_its_attempt plainConfig
    fresh_soloCluster (run_of_exec_guarded hσ) hmem rfl hp hauthor⟩

/-- The first Pod's call passes the gate; then the Pod fails, the attempt is
retried, the second Pod is Ready, and only now the patch lands. -/
def lateReportEvents : List Event :=
  runningEvents ++
    [.env (.call soloKey 1 ⟨"success", "", ∅⟩), .env (.podStatus 1 .failed false [])] ++
    passEvents (taskWorkload soloKey) 10 ++ [.env (.podGone 1)] ++
    passEvents (taskWorkload soloKey) 12 ++ [.env (.podStatus 2 .running true [])] ++
    passEvents (taskWorkload soloKey) 5 ++ [.env (.patch 0)] ++ passEvents (taskWorkload soloKey) 8

/-- The second attempt has succeeded by the report of the first Pod. -/
theorem late_report_settles_retry :
    Fresh soloCluster ∧
    Run (system plainConfig).step anyStep (PoolSpec.idle soloCluster) lateReportEvents
      (reached plainConfig soloCluster lateReportEvents) ∧
    (((reached plainConfig soloCluster lateReportEvents).world.tasks soloKey).map
      fun t => (t.status.phase, t.status.retries)) = some (.succeeded, 1) ∧
    (reached plainConfig soloCluster lateReportEvents).world.outcomes =
      [⟨soloKey, 1, .report [1]⟩] ∧
    (reached plainConfig soloCluster lateReportEvents).world.created.map
      (fun p => (p.uid, p.attempt)) = [(1, 0), (2, 1)] :=
  ⟨fresh_soloCluster, run_any (by decide +kernel),
    by decide +kernel, by decide +kernel, by decide +kernel⟩

end Kaalm.Controller

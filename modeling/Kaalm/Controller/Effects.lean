/-
  Controller/Effects.lean --- everything one step can do to the store.

  `Effect` is the inversion of `execute`: an operation leaves the store alone or
  makes the one write it names.  `EnvEffect` is the inversion of `envStep`.  The
  lemmas after them read the two per component, so that no invariant unfolds an
  operation again.

  OWNERSHIP OF WRITES.  Tasks are written by operations that carry their key, and
  their status by status updates only; the environment changes neither the
  status, nor the spec, nor the finalizer of a task.
-/
import Kaalm.Controller.Cluster

namespace Kaalm.Controller

open Kaalm.Foundation
open Kaalm.Gateway (Time TaskCompleteRequest handleTaskComplete patchMailbox)

/-! ## Operations -/

def Cluster.setTaskMeta (s : Cluster) (t cur : AgentTask) : Cluster :=
  s.putTask t.key (unlessReleased cur.deletionTimestamp.isSome t.finalizer
    { cur with finalizer := t.finalizer, rv := s.revision + 1 })

def Cluster.setTaskStatus (s : Cluster) (t : AgentTask) (cause : Option Cause)
    (cur : AgentTask) : Cluster :=
  { s.putTask t.key (some { cur with status := t.status, rv := s.revision + 1 }) with
    outcomes := logOutcome t.key cur.status.retries cause s.outcomes }

def Cluster.requestTaskDeletion (s : Cluster) (key : NamespacedName) (cur : AgentTask) : Cluster :=
  s.putTask key (unlessReleased true cur.finalizer
    { cur with
      deletionTimestamp := cur.deletionTimestamp.orElse fun _ => some (metaTime s.clock)
      rv := s.revision + 1 })

def Cluster.setAgentMeta (s : Cluster) (a cur : Agent) : Cluster :=
  s.putAgent a.key (unlessReleased cur.deletionTimestamp.isSome a.finalizer
    { cur with finalizer := a.finalizer, wake := a.wake, rv := s.revision + 1 })

def Cluster.addPod (s : Cluster) (tpl : PodTemplate) : Cluster :=
  { s.putPods (s.pods ++ [tpl.instantiate s.nextUID s.clock]) with
    nextUID := s.nextUID + 1, created := s.created ++ [tpl.instantiate s.nextUID s.clock] }

/-- What an operation can do to the store. -/
inductive Effect (s : Cluster) : Op → Cluster → Prop
  | skip (op : Op) : Effect s op s
  | updateAgent (a cur : Agent) (h : s.agents a.key = some cur) (hrv : cur.rv = a.rv) :
      Effect s (.updateAgent a) (s.setAgentMeta a cur)
  | updateAgentStatus (a cur : Agent) (h : s.agents a.key = some cur) (hrv : cur.rv = a.rv) :
      Effect s (.updateAgentStatus a)
        (s.putAgent a.key (some { cur with status := a.status, rv := s.revision + 1 }))
  | updateTask (t cur : AgentTask) (h : s.tasks t.key = some cur) :
      Effect s (.updateTask t) (s.setTaskMeta t cur)
  | updateTaskStatus (t : AgentTask) (cause : Option Cause) (cur : AgentTask)
      (h : s.tasks t.key = some cur) :
      Effect s (.updateTaskStatus t cause) (s.setTaskStatus t cause cur)
  | deleteTask (key : NamespacedName) (cur : AgentTask) (h : s.tasks key = some cur) :
      Effect s (.deleteTask key) (s.requestTaskDeletion key cur)
  | create (κ : ChildKind) (key : NamespacedName) (val : Child κ) (owner : Workload)
      (h : s.children κ key = none) :
      Effect s (.create κ key val owner)
        (s.putChild κ key (some ⟨val, some owner, s.revision + 1⟩))
  | update (κ : ChildKind) (key : NamespacedName) (obj cur : Stored κ)
      (h : s.children κ key = some cur) (hrv : cur.rv = obj.rv) :
      Effect s (.update κ key obj) (s.putChild κ key (some { obj with rv := s.revision + 1 }))
  | createPod (tpl : PodTemplate) : Effect s (.createPod tpl) (s.addPod tpl)
  | deletePod (uid : UID) :
      Effect s (.deletePod uid) (s.putPods (mapPod uid (Pod.terminate s.clock) s.pods))

section Inversion

variable {α β : Type} {s s' : Cluster} {op : Op} {c : Choice}

theorem checkedUpdate_snd (cur : Option α) (rvOf : α → Nat) (rv : Nat) (f : α → β × Cluster) :
    (checkedUpdate cur rvOf rv s f).2 = s ∨
      ∃ a, cur = some a ∧ rvOf a = rv ∧ (checkedUpdate cur rvOf rv s f).2 = (f a).2 := by
  cases cur with
  | none => exact .inl rfl
  | some a =>
    by_cases hrv : rvOf a = rv
    · refine .inr ⟨a, rfl, hrv, ?_⟩
      simp only [checkedUpdate, if_pos hrv]
    · refine .inl ?_
      simp only [checkedUpdate, if_neg hrv]

theorem checkedUpdate_ok {cur : Option α} {rvOf : α → Nat} {rv : Nat} {f : α → β × Cluster} {b : β}
    (h : checkedUpdate cur rvOf rv s f = (.ok b, s')) :
    ∃ a, cur = some a ∧ rvOf a = rv ∧ f a = (b, s') := by
  cases cur with
  | none => cases h
  | some a =>
    simp only [checkedUpdate] at h
    split_ifs at h with hrv
    · cases h
      exact ⟨a, rfl, hrv, rfl⟩
    · cases h

theorem apply_effect (op : Op) (s : Cluster) : Effect s op (apply op s).2 := by
  cases op with
  | getAgent | getTask | getClass | get | violations | blockedProviders | activity | listPods
  | now => exact .skip _
  | updateAgent a =>
    simp only [apply, applyUpdateAgent]
    obtain h | ⟨cur, hcur, hrv, h⟩ := checkedUpdate_snd (s := s) (s.agents a.key) (·.rv) a.rv _
    · rw [h]; exact .skip _
    · rw [h]; exact .updateAgent a cur hcur hrv
  | updateAgentStatus a =>
    simp only [apply, applyUpdateAgentStatus]
    obtain h | ⟨cur, hcur, hrv, h⟩ := checkedUpdate_snd (s := s) (s.agents a.key) (·.rv) a.rv _
    · rw [h]; exact .skip _
    · rw [h]; exact .updateAgentStatus a cur hcur hrv
  | updateTask t =>
    simp only [apply, applyUpdateTask]
    obtain h | ⟨cur, hcur, -, h⟩ := checkedUpdate_snd (s := s) (s.tasks t.key) (·.rv) t.rv _
    · rw [h]; exact .skip _
    · rw [h]; exact .updateTask t cur hcur
  | updateTaskStatus t cause =>
    simp only [apply, applyUpdateTaskStatus]
    obtain h | ⟨cur, hcur, -, h⟩ := checkedUpdate_snd (s := s) (s.tasks t.key) (·.rv) t.rv _
    · rw [h]; exact .skip _
    · rw [h]; exact .updateTaskStatus t cause cur hcur
  | deleteTask key =>
    simp only [apply, applyDeleteTask]
    split
    · exact .skip _
    · next cur hcur => exact .deleteTask key cur hcur
  | create κ key val owner =>
    simp only [apply, applyCreate]
    split
    · exact .skip _
    · next hnone => exact .create κ key val owner hnone
  | update κ key obj =>
    simp only [apply, applyUpdate]
    obtain h | ⟨cur, hcur, hrv, h⟩ := checkedUpdate_snd (s := s) (s.children κ key) (·.rv) obj.rv _
    · rw [h]; exact .skip _
    · rw [h]; exact .update κ key obj cur hcur hrv
  | createPod tpl => exact .createPod tpl
  | deletePod uid =>
    simp only [apply, applyDeletePod]
    split
    · exact .deletePod uid
    · exact .skip _

theorem execute_world {r : Except ApiError (Ans op)} (h : execute op c s = some (r, s')) :
    s' = s ∨ s' = (apply op s).2 := by
  unfold execute at h
  split at h
  · exact .inr (congrArg Prod.snd (Option.some.inj h)).symm
  · cases h; exact .inl rfl
  · cases h; exact .inr rfl
  · obtain ⟨r, -, heq⟩ := Option.map_eq_some_iff.mp h
    cases heq
    exact .inl rfl
  · simp only [answerList] at h
    split at h
    · cases h; exact .inl rfl
    · cases h
  · cases h; exact .inl rfl
  · cases h; exact .inl rfl
  · cases h; exact .inl rfl
  · cases h

theorem execute_effect {r : Except ApiError (Ans op)} (h : execute op c s = some (r, s')) :
    Effect s op s' := by
  rcases execute_world h with rfl | rfl
  · exact .skip op
  · exact apply_effect op s

/-- The API server answers itself, not a cache and not the rest of the world. -/
def Op.direct : Op → Bool
  | .getClass _ | .get _ _ | .listPods _ _ | .violations _ | .blockedProviders _ | .activity _ =>
    false
  | _ => true

/-- An answer to a direct operation is the API server's, or the error of a failed
call. -/
theorem execute_direct {r : Except ApiError (Ans op)} (h : execute op c s = some (r, s'))
    (hop : op.direct = true) (hr : r ≠ .error .other) : apply op s = (r, s') := by
  unfold execute at h
  split at h
  · exact Option.some.inj h
  · cases h; exact absurd rfl hr
  · cases h; exact absurd rfl hr
  · cases op <;> first | exact Bool.noConfusion hop | cases h
  all_goals first | cases hop | cases h

theorem execute_ok {a : Ans op} (h : execute op c s = some (.ok a, s'))
    (hop : op.direct = true) : apply op s = (.ok a, s') := execute_direct h hop nofun

theorem viewAt_mem (s : Cluster) (lag : Nat) : s.viewAt lag ∈ s.views := by
  unfold Cluster.viewAt
  cases hget : s.views[lag]? with
  | none => exact .head _
  | some v => exact List.mem_of_getElem? hget

theorem found_eq_ok {cur : Option α} {a : α} : found cur = .ok a ↔ cur = some a := by
  cases cur <;> simp [found]

theorem found_eq_notFound {cur : Option α} : found cur = .error .notFound ↔ cur = none := by
  cases cur <;> simp [found]

/-- A read through a cache fails or answers what some view holds; where it does not
lag, that is what is stored. -/
theorem execute_cached {r : Except ApiError (Ans op)} (h : execute op c s = some (r, s'))
    (hop : (s.toView.answer op).isSome = true) :
    s' = s ∧ (r = .error .other ∧ (c = .failed ∨ c = .lost) ∨
      ∃ v ∈ s.views, v.answer op = some r ∧
        (lags s op c = false → s.toView.answer op = some r)) := by
  cases op with
  | getClass name | get κ key =>
    cases c with
    | ok => cases h; exact ⟨rfl, .inr ⟨s.toView, .head _, rfl, fun _ => rfl⟩⟩
    | stale lag =>
      cases h
      refine ⟨rfl, .inr ⟨s.viewAt lag, viewAt_mem s lag, rfl, fun hlags => ?_⟩⟩
      simp only [lags, ne_eq, decide_not, Bool.not_eq_false', decide_eq_true_eq] at hlags
      simp only [View.answer, hlags]
    | failed => cases h; exact ⟨rfl, .inl ⟨rfl, .inl rfl⟩⟩
    | lost => cases h; exact ⟨rfl, .inl ⟨rfl, .inr rfl⟩⟩
    | listed | violations | blockedProviders | activity => cases h
  | _ => cases hop

end Inversion

/-! ## The environment -/

/-- How the Pod list moves without a reconciler: statuses and deletion
timestamps, or Pods that leave. -/
inductive PodsMove (pods : List Pod) : List Pod → Prop
  | map (f : Pod → Pod) (htemplate : ∀ p, (f p).toPodTemplate = p.toPodTemplate)
      (huid : ∀ p, (f p).uid = p.uid) (hlive : ∀ p, (f p).live = true → p.live = true) :
      PodsMove pods (pods.map f)
  | filter (q : Pod → Bool) : PodsMove pods (pods.filter q)

structure TaskKept (cur t : AgentTask) : Prop where
  key : t.key = cur.key
  spec : t.spec = cur.spec
  status : t.status = cur.status
  finalizer : t.finalizer = cur.finalizer

/-- What the environment can do to the store. -/
inductive EnvEffect (s : Cluster) : EnvEvent → Cluster → Prop
  | tick (d : Nat) : EnvEffect s (.tick d) { s with clock := s.clock + d }
  | pods (e : EnvEvent) (pods : List Pod) (h : PodsMove s.pods pods) :
      EnvEffect s e (s.putPods pods)
  | issue (key : NamespacedName) (c : Stored .certificate)
      (h : s.children .certificate key = some c) :
      EnvEffect s (.issue key) (issueCertificate key c s)
  | unready (key : NamespacedName) (c : Stored .certificate)
      (h : s.children .certificate key = some c) :
      EnvEffect s (.unready key) (s.putChild .certificate key
        (some { c with val := { c.val with ready := false }, rv := s.revision + 1 }))
  | call (task : NamespacedName) (caller : UID) (req : TaskCompleteRequest)
      (data : GoMap String String)
      (h : handleTaskComplete (s.tasks task)
        (if s.pods.any (·.uid = caller) then some caller else none) req = .ok data) :
      EnvEffect s (.call task caller req) { s with calls := s.calls ++ [⟨task, caller, data⟩] }
  | patch (i : Nat) (c : Call) (h : s.calls[i]? = some c) :
      EnvEffect s (.patch i) { landPatch c s with calls := s.calls.eraseIdx i }
  | drop (i : Nat) : EnvEffect s (.drop i) { s with calls := s.calls.eraseIdx i }
  | deleteTask (key : NamespacedName) (cur : AgentTask) (h : s.tasks key = some cur) :
      EnvEffect s (.deleteTask key) (s.requestTaskDeletion key cur)
  | deleteNothing (key : NamespacedName) : EnvEffect s (.deleteTask key) s
  | touchTask (key : NamespacedName) (cur : AgentTask) (h : s.tasks key = some cur) :
      EnvEffect s (.touchTask key) (s.putTask key (some { cur with rv := s.revision + 1 }))
  | deleteAgent (key : NamespacedName) (cur : Agent) (h : s.agents key = some cur) :
      EnvEffect s (.deleteAgent key) (deleteAgent key cur s)
  | wakeAgent (key : NamespacedName) (cur : Agent) (h : s.agents key = some cur) :
      EnvEffect s (.wakeAgent key)
        (s.putAgent key (some { cur with wake := true, rv := s.revision + 1 }))
  | editAgent (key : NamespacedName) (spec : AgentSpec) (cur : Agent)
      (h : s.agents key = some cur) :
      EnvEffect s (.editAgent key spec) (s.putAgent key
        (some { cur with
          spec := spec, generation := cur.generation + 1, rv := s.revision + 1 }))
  | editClass (name : String) (cls : AgentClass) :
      EnvEffect s (.editClass name cls)
        { s with
          classes := Function.update s.classes name (some cls), past := s.toView :: s.past }
  | collect (κ : ChildKind) (key : NamespacedName) (c : Stored κ) (w : Workload)
      (h : s.children κ key = some c) (howner : c.owner = some w) (hgone : s.present w = false) :
      EnvEffect s (.collect κ key) (s.putChild κ key none)

theorem podsMove_mapPod (uid : UID) {f : Pod → Pod} (pods : List Pod)
    (htemplate : ∀ p, (f p).toPodTemplate = p.toPodTemplate) (huid : ∀ p, (f p).uid = p.uid)
    (hlive : ∀ p, (f p).live = true → p.live = true) : PodsMove pods (mapPod uid f pods) := by
  refine .map _ (fun p => ?_) (fun p => ?_) fun p => ?_
  all_goals split
  · exact htemplate p
  · rfl
  · exact huid p
  · rfl
  · exact hlive p
  · exact id

theorem podsMove_terminate (uid : UID) (now : Time) (pods : List Pod) :
    PodsMove pods (mapPod uid (Pod.terminate now) pods) := by
  refine podsMove_mapPod uid pods (fun _ => rfl) (fun _ => rfl) fun p h => ?_
  cases hd : p.deletionTimestamp with
  | none => simp [Pod.live, hd]
  | some d => simp [Pod.live, Pod.terminate, hd] at h

theorem envStep_effect {s s' : Cluster} {e : EnvEvent} (h : envStep s e = some s') :
    EnvEffect s e s' := by
  cases e with
  | tick d => cases h; exact .tick d
  | podStatus uid phase ready statuses =>
    cases h
    refine .pods _ _ (podsMove_mapPod uid s.pods (fun p => ?_) (fun p => ?_) fun p h => ?_)
    all_goals unfold Pod.observe at *; split at *
    all_goals first | rfl | exact h
  | podDelete uid => cases h; exact .pods _ _ (podsMove_terminate uid s.clock s.pods)
  | podGone uid => cases h; exact .pods _ _ (.filter _)
  | issue key =>
    obtain ⟨c, hc, rfl⟩ := Option.map_eq_some_iff.mp h
    exact .issue key c hc
  | unready key =>
    obtain ⟨c, hc, rfl⟩ := Option.map_eq_some_iff.mp h
    exact .unready key c hc
  | call task caller req =>
    simp only [envStep] at h
    split at h
    · next data hdata => cases h; exact .call task caller req data hdata
    · cases h
  | patch i =>
    obtain ⟨c, hc, rfl⟩ := Option.map_eq_some_iff.mp h
    exact .patch i c hc
  | drop i => cases h; exact .drop i
  | deleteTask key =>
    cases h
    unfold applyDeleteTask
    split
    · exact .deleteNothing key
    · next cur hcur => exact .deleteTask key cur hcur
  | deleteAgent key =>
    obtain ⟨cur, hcur, rfl⟩ := Option.map_eq_some_iff.mp h
    exact .deleteAgent key cur hcur
  | touchTask key =>
    obtain ⟨cur, hcur, rfl⟩ := Option.map_eq_some_iff.mp h
    exact .touchTask key cur hcur
  | wakeAgent key =>
    obtain ⟨cur, hcur, rfl⟩ := Option.map_eq_some_iff.mp h
    exact .wakeAgent key cur hcur
  | editAgent key spec =>
    obtain ⟨cur, hcur, rfl⟩ := Option.map_eq_some_iff.mp h
    exact .editAgent key spec cur hcur
  | editClass name cls => cases h; exact .editClass name cls
  | collect κ key =>
    simp only [envStep] at h
    split at h
    · next c hc =>
      split at h
      · next w hw =>
        split at h
        · cases h
        · next hgone => cases h; exact .collect κ key c w hc hw (by simpa using hgone)
      · cases h
    · cases h

/-! ## Tasks -/

section Components

variable {s s' : Cluster} {op : Op} {e : EnvEvent}

theorem eq_of_unlessReleased {α : Type} {deleted finalizer : Bool} {a b : α}
    (h : unlessReleased deleted finalizer a = some b) : b = a := by
  unfold unlessReleased at h
  split at h
  · cases h
  · exact (Option.some.inj h).symm

theorem unlessReleased_held {α : Type} (deleted : Bool) {finalizer : Bool} (a : α)
    (h : finalizer = true) : unlessReleased deleted finalizer a = some a := by
  simp [unlessReleased, h]

variable {k : NamespacedName}

/-- One object of a store is written over, or none; an object that is being deleted
goes when the write leaves it no finalizer. -/
inductive Rewritten {V : Type} (held : V → Bool) (P : NamespacedName → V → V → Prop)
    (m : NamespacedName → Option V) : (NamespacedName → Option V) → Prop
  | same : Rewritten held P m m
  | write (k : NamespacedName) (cur new : V) (deleted fin : Bool) (h : m k = some cur)
      (hfin : held new = fin) (hP : P k cur new) :
      Rewritten held P m (Function.update m k (unlessReleased deleted fin new))

section Rewritten

variable {V : Type} {held : V → Bool} {P : NamespacedName → V → V → Prop}
  {m m' : NamespacedName → Option V} {v : V}

theorem Rewritten.of_some (h : Rewritten held P m m') (hv : m' k = some v) :
    m k = some v ∨ ∃ cur, m k = some cur ∧ P k cur v := by
  cases h with
  | same => exact .inl hv
  | write k' cur new deleted fin hcur hfin hP =>
    rcases eq_or_ne k k' with rfl | hk
    · rw [Function.update_self] at hv
      rw [eq_of_unlessReleased hv]
      exact .inr ⟨cur, hcur, hP⟩
    · exact .inl (by rwa [Function.update_of_ne hk] at hv)

theorem Rewritten.stays (h : Rewritten held P m m') (hv : m k = some v) (hheld : held v = true)
    (hP : ∀ new, P k v new → held new = true) : ∃ v', m' k = some v' ∧ held v' = true := by
  cases h with
  | same => exact ⟨v, hv, hheld⟩
  | write k' cur new deleted fin hcur hfin hnew =>
    by_cases hk : k = k'
    · subst hk
      obtain rfl : cur = v := Option.some.inj (hcur.symm.trans hv)
      have hkeep := hP new hnew
      exact ⟨new, (Function.update_self ..).trans
        (unlessReleased_held _ _ (hfin.symm.trans hkeep)), hkeep⟩
    · exact ⟨v, (Function.update_of_ne hk _ _).trans hv, hheld⟩

end Rewritten

theorem landPatch_frame (c : Call) (s : Cluster) :
    (landPatch c s).tasks = s.tasks ∧ (landPatch c s).agents = s.agents ∧
      (landPatch c s).outcomes = s.outcomes ∧ (landPatch c s).pods = s.pods ∧
      (landPatch c s).created = s.created := by
  unfold landPatch
  split <;> exact ⟨rfl, rfl, rfl, rfl, rfl⟩

/-- The write of an operation to a task: its finalizer, its status or its deletion. -/
def TaskWrite (rev : Nat) (op : Op) (k : NamespacedName) (cur new : AgentTask) : Prop :=
  (∃ u, op = .updateTask u ∧ u.key = k ∧
    new = { cur with finalizer := u.finalizer, rv := rev + 1 }) ∨
  (∃ u cause, op = .updateTaskStatus u cause ∧ u.key = k ∧
    new = { cur with status := u.status, rv := rev + 1 }) ∨
  TaskKept cur new

theorem Effect.tasks (h : Effect s op s') :
    Rewritten (·.finalizer) (TaskWrite s.revision op) s.tasks s'.tasks := by
  cases h with
  | updateTask u cur h => exact .write _ cur _ _ _ h rfl (.inl ⟨u, rfl, rfl, rfl⟩)
  | updateTaskStatus u cause cur h =>
    exact .write _ cur _ false _ h rfl (.inr (.inl ⟨u, cause, rfl, rfl, rfl⟩))
  | deleteTask key cur h => exact .write _ cur _ _ _ h rfl (.inr (.inr ⟨rfl, rfl, rfl, rfl⟩))
  | _ => exact .same

/-- A task after an operation: the same object, under its key and with its spec;
its status is the old one or the one a status update carries. -/
theorem Effect.task (h : Effect s op s') {t' : AgentTask} (ht' : s'.tasks k = some t') :
    ∃ t, s.tasks k = some t ∧ t'.key = t.key ∧ t'.spec = t.spec ∧
      (t'.status = t.status ∨
        ∃ u cause, op = .updateTaskStatus u cause ∧ u.key = k ∧ t'.status = u.status) := by
  rcases h.tasks.of_some ht' with hold | ⟨t, ht, hwrite⟩
  · exact ⟨t', hold, rfl, rfl, .inl rfl⟩
  · rcases hwrite with ⟨u, -, -, rfl⟩ | ⟨u, cause, rfl, hk, rfl⟩ | hkept
    · exact ⟨t, ht, rfl, rfl, .inl rfl⟩
    · exact ⟨t, ht, rfl, rfl, .inr ⟨u, cause, rfl, hk, rfl⟩⟩
    · exact ⟨t, ht, hkept.key, hkept.spec, .inl hkept.status⟩

theorem EnvEffect.tasks (h : EnvEffect s e s') :
    Rewritten (·.finalizer) (fun _ => TaskKept) s.tasks s'.tasks := by
  cases h with
  | deleteTask key cur h => exact .write _ cur _ _ _ h rfl ⟨rfl, rfl, rfl, rfl⟩
  | touchTask key cur h => exact .write _ cur _ false _ h rfl ⟨rfl, rfl, rfl, rfl⟩
  | patch i c h => rw [show _ = s.tasks from (landPatch_frame c s).1]; exact .same
  | _ => exact .same

/-- The environment writes neither spec, status nor finalizer of a task. -/
theorem EnvEffect.task (h : EnvEffect s e s') {t' : AgentTask} (ht' : s'.tasks k = some t') :
    ∃ t, s.tasks k = some t ∧ TaskKept t t' := by
  rcases h.tasks.of_some ht' with hold | hwrite
  · exact ⟨t', hold, rfl, rfl, rfl, rfl⟩
  · exact hwrite

/-! ## Agents -/

/-- The write of an operation to an agent: its finalizer and wake annotation, or its
status. -/
def AgentWrite (s s' : Cluster) (op : Op) (k : NamespacedName) (cur new : Agent) : Prop :=
  s'.revision = s.revision + 1 ∧
  ((∃ u, op = .updateAgent u ∧ u.key = k ∧
    new = { cur with finalizer := u.finalizer, wake := u.wake, rv := s.revision + 1 }) ∨
  (∃ u, op = .updateAgentStatus u ∧ u.key = k ∧
    new = { cur with status := u.status, rv := s.revision + 1 }))

theorem Effect.agents (h : Effect s op s') :
    Rewritten (·.finalizer) (AgentWrite s s' op) s.agents s'.agents := by
  cases h with
  | updateAgent u cur h => exact .write _ cur _ _ _ h rfl ⟨rfl, .inl ⟨u, rfl, rfl, rfl⟩⟩
  | updateAgentStatus u cur h => exact .write _ cur _ false _ h rfl ⟨rfl, .inr ⟨u, rfl, rfl, rfl⟩⟩
  | _ => exact .same

theorem Effect.agent (h : Effect s op s') {a' : Agent} (ha' : s'.agents k = some a') :
    ∃ a, s.agents k = some a ∧ a'.key = a.key ∧ a'.spec = a.spec := by
  rcases h.agents.of_some ha' with hold | ⟨a, ha, -, ⟨u, -, -, rfl⟩ | ⟨u, -, -, rfl⟩⟩
  · exact ⟨a', hold, rfl, rfl⟩
  · exact ⟨a, ha, rfl, rfl⟩
  · exact ⟨a, ha, rfl, rfl⟩

/-- What the environment writes to an agent: a deletion, a wake request or a new
spec. -/
def AgentEdit (s s' : Cluster) (e : EnvEvent) (k : NamespacedName) (cur new : Agent) : Prop :=
  s'.revision = s.revision + 1 ∧
  (new = { cur with
      deletionTimestamp := cur.deletionTimestamp.orElse fun _ => some (metaTime s.clock)
      rv := s.revision + 1 } ∨
    new = { cur with wake := true, rv := s.revision + 1 } ∨
    ∃ spec, e = .editAgent k spec ∧
      new = { cur with spec := spec, generation := cur.generation + 1, rv := s.revision + 1 })

theorem EnvEffect.agents (h : EnvEffect s e s') :
    Rewritten (·.finalizer) (AgentEdit s s' e) s.agents s'.agents := by
  cases h with
  | deleteAgent key cur h => exact .write _ cur _ _ _ h rfl ⟨rfl, .inl rfl⟩
  | wakeAgent key cur h => exact .write _ cur _ false _ h rfl ⟨rfl, .inr (.inl rfl)⟩
  | editAgent key spec cur h =>
    exact .write _ cur _ false _ h rfl ⟨rfl, .inr (.inr ⟨spec, rfl, rfl⟩)⟩
  | patch i c h => rw [show _ = s.agents from (landPatch_frame c s).2.1]; exact .same
  | _ => exact .same

theorem EnvEffect.agent (h : EnvEffect s e s') {a' : Agent} (ha' : s'.agents k = some a') :
    ∃ a, s.agents k = some a ∧ a'.key = a.key ∧
      (a'.spec = a.spec ∨ ∃ spec, e = .editAgent k spec) := by
  rcases h.agents.of_some ha' with hold | ⟨a, ha, -, rfl | rfl | ⟨spec, he, rfl⟩⟩
  · exact ⟨a', hold, rfl, .inl rfl⟩
  · exact ⟨a, ha, rfl, .inl rfl⟩
  · exact ⟨a, ha, rfl, .inl rfl⟩
  · exact ⟨a, ha, rfl, .inr ⟨spec, he⟩⟩

theorem EnvEffect.agent_held (h : EnvEffect s e s') {a : Agent} (ha : s.agents k = some a)
    (hfin : a.finalizer = true) :
    ∃ a', s'.agents k = some a' ∧ a'.finalizer = true := by
  refine h.agents.stays ha hfin ?_
  rintro new ⟨-, rfl | rfl | ⟨spec, -, rfl⟩⟩ <;> exact hfin

/-! ## Views -/

/-- What a cache may hold after an operation: what it could hold before, or the new
store. -/
theorem Effect.views (h : Effect s op s') {v : View} (hv : v ∈ s'.views) :
    v = s'.toView ∨ v ∈ s.views := by
  rcases List.mem_cons.mp hv with rfl | hold
  · exact .inl rfl
  · cases h with
    | create | update | createPod | deletePod => exact .inr hold
    | _ => exact .inr (.tail _ hold)

theorem EnvEffect.views (h : EnvEffect s e s') {v : View} (hv : v ∈ s'.views) :
    v = s'.toView ∨ v ∈ s.views := by
  rcases List.mem_cons.mp hv with rfl | hold
  · exact .inl rfl
  · cases h with
    | pods | issue | unready | editClass | collect => exact .inr hold
    | patch i c h =>
      simp only [landPatch] at hold
      split at hold
      · exact .inr (.tail _ hold)
      · exact .inr hold
    | _ => exact .inr (.tail _ hold)

/-! ## Children -/

@[simp] theorem putChild_self (s : Cluster) (κ : ChildKind) (k : NamespacedName)
    (c : Option (Stored κ)) : (s.putChild κ k c).children κ k = c := by
  simp [Cluster.putChild]

theorem putChild_of_ne (s : Cluster) {κ κ' : ChildKind} {k' : NamespacedName}
    (c : Option (Stored κ)) (h : κ' = κ → k' ≠ k) :
    (s.putChild κ k c).children κ' k' = s.children κ' k' := by
  by_cases hκ : κ' = κ
  · subst hκ
    simp [Cluster.putChild, h rfl]
  · simp [Cluster.putChild, hκ]

theorem Effect.child (h : Effect s op s') (κ : ChildKind) (k : NamespacedName) :
    s'.children κ k = s.children κ k ∨
    (∃ val owner, op = .create κ k val owner ∧ s.children κ k = none ∧
      s'.children κ k = some ⟨val, some owner, s.revision + 1⟩) ∨
    (∃ obj cur, op = .update κ k obj ∧ s.children κ k = some cur ∧ cur.rv = obj.rv ∧
      s'.children κ k = some { obj with rv := s.revision + 1 }) := by
  cases h with
  | create κ' key val owner h =>
    by_cases heq : κ = κ' ∧ k = key
    · obtain ⟨rfl, rfl⟩ := heq
      exact .inr (.inl ⟨val, owner, rfl, h, putChild_self ..⟩)
    · exact .inl (putChild_of_ne s _ fun hκ hk => heq ⟨hκ, hk⟩)
  | update κ' key obj cur h hrv =>
    by_cases heq : κ = κ' ∧ k = key
    · obtain ⟨rfl, rfl⟩ := heq
      exact .inr (.inr ⟨obj, cur, rfl, h, hrv, putChild_self ..⟩)
    · exact .inl (putChild_of_ne s _ fun hκ hk => heq ⟨hκ, hk⟩)
  | _ => exact .inl rfl

/-- A child after a step of the environment that is neither cert-manager's nor the
gateway's: the same, or collected with its owner gone. -/
theorem EnvEffect.child (h : EnvEffect s e s') (κ : ChildKind) (k : NamespacedName)
    (hκ : κ ≠ .certificate ∧ κ ≠ .secret ∧ κ ≠ .configMap) :
    s'.children κ k = s.children κ k ∨
    (∃ c w, s.children κ k = some c ∧ c.owner = some w ∧ s.present w = false ∧
      s'.children κ k = none) := by
  cases h with
  | issue key c h =>
    refine .inl ((putChild_of_ne _ _ fun heq => absurd heq hκ.1).trans ?_)
    exact putChild_of_ne s _ fun heq => absurd heq hκ.2.1
  | unready key c h => exact .inl (putChild_of_ne s _ fun heq => absurd heq hκ.1)
  | patch i c h =>
    refine .inl ?_
    simp only [landPatch]
    split
    · rfl
    · exact putChild_of_ne s _ fun heq => absurd heq hκ.2.2
  | collect κ' key c w h howner hgone =>
    by_cases heq : κ = κ' ∧ k = key
    · obtain ⟨rfl, rfl⟩ := heq
      exact .inr ⟨c, w, h, howner, hgone, putChild_self ..⟩
    · exact .inl (putChild_of_ne s _ fun hκ hk => heq ⟨hκ, hk⟩)
  | _ => exact .inl rfl

/-- A ConfigMap after a step of the environment: the same, patched by a pending
call, or collected with its owner gone. -/
theorem EnvEffect.configMap (h : EnvEffect s e s') (k : NamespacedName) :
    s'.children .configMap k = s.children .configMap k ∨
    (∃ i c box, e = .patch i ∧ s.calls[i]? = some c ∧ mailboxKey c.task = k ∧
      s.children .configMap k = some box ∧
      s'.children .configMap k = some
        { box with val := patchMailbox box.val c.caller c.data, rv := s.revision + 1 }) ∨
    (∃ c w, s.children .configMap k = some c ∧ c.owner = some w ∧ s.present w = false ∧
      s'.children .configMap k = none) := by
  cases h with
  | issue key c h =>
    exact .inl ((putChild_of_ne _ _ fun heq => by cases heq).trans
      (putChild_of_ne s _ fun heq => by cases heq))
  | unready key c h => exact .inl (putChild_of_ne s _ fun heq => by cases heq)
  | patch i c h =>
    simp only [landPatch]
    split
    · exact .inl rfl
    · next box hbox =>
      by_cases hk : mailboxKey c.task = k
      · subst hk
        exact .inr (.inl ⟨i, c, box, rfl, h, rfl, hbox, putChild_self ..⟩)
      · exact .inl (putChild_of_ne s _ fun _ heq => hk heq.symm)
  | collect κ' key c w h howner hgone =>
    by_cases heq : ChildKind.configMap = κ' ∧ k = key
    · obtain ⟨rfl, rfl⟩ := heq
      exact .inr (.inr ⟨c, w, h, howner, hgone, putChild_self ..⟩)
    · exact .inl (putChild_of_ne s _ fun hκ hk => heq ⟨hκ, hk⟩)
  | _ => exact .inl rfl

/-! ## Calls and outcomes -/

theorem Effect.calls (h : Effect s op s') : s'.calls = s.calls := by
  cases h with
  | _ => rfl

theorem EnvEffect.calls (h : EnvEffect s e s') {c : Call} (hc : c ∈ s'.calls) :
    c ∈ s.calls ∨ ∃ req, handleTaskComplete (s.tasks c.task)
      (if s.pods.any (·.uid = c.caller) then some c.caller else none) req = .ok c.data := by
  cases h with
  | call task caller req data hdata =>
    rcases List.mem_append.mp hc with hold | hnew
    · exact .inl hold
    · rw [List.mem_singleton.mp hnew]
      exact .inr ⟨req, hdata⟩
  | patch | drop => exact .inl (List.mem_of_mem_eraseIdx hc)
  | _ => exact .inl hc

theorem mem_logOutcome {attempt : Nat} {cause : Option Cause} {os : List Outcome} {o : Outcome} :
    o ∈ logOutcome k attempt cause os ↔ o ∈ os ∨ ∃ c, cause = some c ∧ o = ⟨k, attempt, c⟩ := by
  cases cause with
  | none => simp [logOutcome]
  | some c => simp [logOutcome, or_comm]

/-- A step that writes no status of the task: its outcomes are not touched either. -/
structure Leaves (k : NamespacedName) (s s' : Cluster) : Prop where
  task : ∀ t', s'.tasks k = some t' →
    ∃ t, s.tasks k = some t ∧ t'.spec = t.spec ∧ t'.status = t.status
  outcomes : ∀ o, o.task = k → (o ∈ s'.outcomes ↔ o ∈ s.outcomes)

/-- An operation leaves the status of a task alone, or is an update of it. -/
theorem Effect.leaves (h : Effect s op s') (k : NamespacedName) :
    Leaves k s s' ∨ ∃ u cause t, op = .updateTaskStatus u cause ∧ u.key = k ∧
      s.tasks k = some t ∧ s' = s.setTaskStatus u cause t := by
  have htask := fun t' (ht' : s'.tasks k = some t') => h.task ht'
  cases h with
  | updateTaskStatus u cause cur hcur =>
    by_cases hk : u.key = k
    · subst hk
      exact .inr ⟨u, cause, cur, rfl, rfl, hcur, rfl⟩
    · refine .inl ⟨fun t' ht' => ⟨t', ?_, rfl, rfl⟩, fun o ho => ?_⟩
      · exact (Function.update_of_ne (Ne.symm hk) _ _).symm.trans ht'
      · refine mem_logOutcome.trans (or_iff_left ?_)
        rintro ⟨c, -, rfl⟩
        exact hk ho
  | skip => exact .inl ⟨fun t' ht' => ⟨t', ht', rfl, rfl⟩, fun _ _ => .rfl⟩
  | _ =>
    refine .inl ⟨fun t' ht' => ?_, fun _ _ => .rfl⟩
    obtain ⟨t, ht, -, hspec, hstatus | ⟨u, cause, hop, -⟩⟩ := htask t' ht'
    · exact ⟨t, ht, hspec, hstatus⟩
    · cases hop

theorem EnvEffect.leaves (h : EnvEffect s e s') (k : NamespacedName) : Leaves k s s' where
  task t' ht' := by
    obtain ⟨t, ht, hkept⟩ := h.task ht'
    exact ⟨t, ht, hkept.spec, hkept.status⟩
  outcomes o _ := by
    have hsame : s'.outcomes = s.outcomes := by
      cases h with
      | patch i c h => exact (landPatch_frame c s).2.2.1
      | _ => rfl
    rw [hsame]

/-! ## Pods -/

theorem Effect.pods (h : Effect s op s') :
    (s'.pods = s.pods ∧ s'.created = s.created) ∨
    (∃ tpl, op = .createPod tpl ∧ s' = s.addPod tpl) ∨
    (PodsMove s.pods s'.pods ∧ s'.created = s.created) := by
  cases h with
  | createPod tpl => exact .inr (.inl ⟨tpl, rfl, rfl⟩)
  | deletePod uid => exact .inr (.inr ⟨podsMove_terminate uid s.clock s.pods, rfl⟩)
  | _ => exact .inl ⟨rfl, rfl⟩

theorem podsMove_refl (pods : List Pod) : PodsMove pods pods := by
  have h : PodsMove pods (pods.map id) := .map id (fun _ => rfl) (fun _ => rfl) fun _ h => h
  rwa [List.map_id] at h

theorem EnvEffect.pods_move (h : EnvEffect s e s') :
    PodsMove s.pods s'.pods ∧ s'.created = s.created := by
  cases h with
  | pods e pods h => exact ⟨h, rfl⟩
  | patch i c h =>
    obtain ⟨-, -, -, hpods, hcreated⟩ := landPatch_frame c s
    exact ⟨hpods.symm ▸ podsMove_refl _, hcreated⟩
  | _ => exact ⟨podsMove_refl _, rfl⟩

/-- A Pod that is there after a move was there before, with its template and uid,
and was live if it is. -/
theorem PodsMove.mem {pods pods' : List Pod} (h : PodsMove pods pods') {p' : Pod}
    (hp' : p' ∈ pods') :
    ∃ p ∈ pods, p'.toPodTemplate = p.toPodTemplate ∧ p'.uid = p.uid ∧
      (p'.live = true → p.live = true) := by
  cases h with
  | map f htemplate huid hlive =>
    obtain ⟨p, hp, rfl⟩ := List.mem_map.mp hp'
    exact ⟨p, hp, htemplate p, huid p, hlive p⟩
  | filter q => exact ⟨p', List.mem_of_mem_filter hp', rfl, rfl, id⟩

end Components

end Kaalm.Controller

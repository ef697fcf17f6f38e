/-
  Controller/Lineage.lean --- what every run of the two reconcilers keeps.

  One contract for both kinds of passes, and the facts every later invariant
  starts from: the objects of a reached store are those it started with, under
  their keys and, for tasks, with their specs; a pass that has seen its own object
  holding the finalizer can rely on the object being there; and the status a task
  pass believes to be stored is the stored one, because nobody else writes it.
-/
import Kaalm.Controller.AgentPass
import Kaalm.Controller.TaskPass
import Kaalm.Controller.Effects

namespace Kaalm.Controller

open Kaalm.Foundation
open Prog (Safe)

/-! ## One contract -/

def contract (cfg : Config) (w : Workload) : Contract Op Ans ApiError :=
  match w.kind with
  | .agent => agentContract cfg w.key
  | .agentTask => taskContract cfg w.key

theorem safe_reconcile (cfg : Config) (w : Workload) :
    Safe (contract cfg w) (fun _ _ => True) (reconcile cfg w) [] := by
  cases w with
  | agent key => exact safe_reconcileAgent cfg key
  | agentTask key => exact safe_reconcileTask cfg key

variable {cfg : Config} {w : Workload} {tr : History}

theorem answers_honest (w : Workload) : (contract cfg w).answers = honest := by
  cases w with
  | agent | agentTask => rfl

/-- A task's metadata is written by its own pass, and only by one that has not
seen itself held. -/
theorem allows_updateTask {t : AgentTask} (h : (contract cfg w).allows tr (.updateTask t)) :
    w = taskWorkload t.key ∧ ¬SawSelf w tr := by
  cases w with
  | agent => exact False.elim h
  | agentTask =>
    obtain ⟨hkey, hself⟩ := h
    exact ⟨by rw [hkey]; rfl, hself⟩

theorem allows_updateTaskStatus {t : AgentTask} {cause : Option Cause}
    (h : (contract cfg w).allows tr (.updateTaskStatus t cause)) :
    w = taskWorkload t.key ∧ MayWriteStatus t.key tr t cause := by
  cases w with
  | agent => exact False.elim h
  | agentTask key =>
    have hw : MayWriteStatus key tr t cause := h
    obtain rfl := hw.named
    exact ⟨rfl, hw⟩

variable {k : NamespacedName}

theorem allows_getTask (h : (contract cfg w).allows tr (.getTask k)) :
    w = taskWorkload k ∧ tr = [] := by
  cases w with
  | agent => exact False.elim h
  | agentTask =>
    obtain ⟨hkey, hnil⟩ := h
    exact ⟨by rw [hkey]; rfl, hnil⟩

theorem allows_updateAgent {u : Agent} (h : (contract cfg w).allows tr (.updateAgent u)) :
    w = agentWorkload u.key ∧ ∃ b, KnownVersion u.key tr b ∧ MayWriteMeta u.key tr b u := by
  cases w with
  | agent =>
    obtain ⟨rfl, b, hb⟩ := h
    exact ⟨rfl, b, hb⟩
  | agentTask => exact False.elim h

theorem allows_create {κ : ChildKind} {val : Child κ} {owner : Workload}
    (h : (contract cfg w).allows tr (.create κ k val owner)) :
    owner = w ∧ MayCreate cfg w tr κ k val := by
  cases w with
  | agent | agentTask => exact h

theorem allows_update {κ : ChildKind} {obj : Stored κ}
    (h : (contract cfg w).allows tr (.update κ k obj)) : MayUpdate cfg w tr κ k obj := by
  cases w with
  | agent => exact h
  | agentTask => exact h.1

theorem allows_createPod {tpl : PodTemplate}
    (h : (contract cfg w).allows tr (.createPod tpl)) : MayCreatePod cfg w tr tpl := by
  cases w with
  | agent => exact h
  | agentTask => exact h.1

/-! ## Answers -/

variable {s s' : Cluster} {c : Choice}

theorem fetch_ok {α : Type} {cur : Option α} {a : α} (h : fetch cur s = (.ok a, s')) :
    cur = some a ∧ s' = s := by
  cases cur with
  | none => cases h
  | some b => cases h; exact ⟨rfl, rfl⟩

theorem execute_getTask {t : AgentTask} (h : execute (.getTask k) c s = some (.ok t, s')) :
    s.tasks k = some t ∧ s' = s :=
  fetch_ok (execute_ok h rfl)

theorem execute_getAgent {a : Agent} (h : execute (.getAgent k) c s = some (.ok a, s')) :
    s.agents k = some a ∧ s' = s :=
  fetch_ok (execute_ok h rfl)

variable {κ : ChildKind}

theorem execute_get_ok {obj : Stored κ} (h : execute (.get κ k) c s = some (.ok obj, s')) :
    s' = s ∧ ∃ v ∈ s.views, v.children κ k = some obj ∧
      (lags s (.get κ k) c = false → s.children κ k = some obj) := by
  obtain ⟨hsame, ⟨hr, -⟩ | ⟨v, hv, hr, hstored⟩⟩ := execute_cached h rfl
  · cases hr
  · exact ⟨hsame, v, hv, found_eq_ok.mp (Option.some.inj hr), fun hlags =>
      found_eq_ok.mp (Option.some.inj (hstored hlags))⟩

theorem execute_createPod {tpl : PodTemplate} {p : Pod}
    (h : execute (.createPod tpl) c s = some (.ok p, s')) :
    p = tpl.instantiate s.nextUID s.clock ∧ s' = s.addPod tpl := by
  have happ := execute_ok h rfl
  cases happ
  exact ⟨rfl, rfl⟩

theorem execute_get_notFound (h : execute (.get κ k) c s = some (.error .notFound, s'))
    (hlags : lags s (.get κ k) c = false) : s.children κ k = none ∧ s' = s := by
  obtain ⟨hsame, ⟨hr, -⟩ | ⟨v, -, -, hstored⟩⟩ := execute_cached h rfl
  · cases hr
  · exact ⟨found_eq_notFound.mp (Option.some.inj (hstored hlags)), hsame⟩

theorem execute_update {obj : Stored κ} {u : Unit}
    (h : execute (.update κ k obj) c s = some (.ok u, s')) :
    s' = s.putChild κ k (some { obj with rv := s.revision + 1 }) := by
  obtain ⟨cur, -, -, hput⟩ := checkedUpdate_ok (execute_ok h rfl)
  cases hput
  rfl

theorem execute_updateTaskStatus {t : AgentTask} {cause : Option Cause} {rv : Nat}
    (h : execute (.updateTaskStatus t cause) c s = some (.ok rv, s')) :
    ∃ cur, s.tasks t.key = some cur ∧ s' = s.setTaskStatus t cause cur := by
  obtain ⟨cur, hcur, -, hput⟩ := checkedUpdate_ok (execute_ok h rfl)
  cases hput
  exact ⟨cur, hcur, rfl⟩

/-! ## Lineage -/

/-- The objects of a reached store go back to those of `s₀`. -/
structure Lineage (s₀ s : Cluster) : Prop where
  taskKey : ∀ k t, s.tasks k = some t → t.key = k
  taskSpec : ∀ k t, s.tasks k = some t → ∃ t₀, s₀.tasks k = some t₀ ∧ t.spec = t₀.spec
  agentKey : ∀ k a, s.agents k = some a → a.key = k
  agentFrom : ∀ k a, s.agents k = some a → s₀.present (agentWorkload k) = true

def AgentTaskStatus.initial : AgentTaskStatus where
  observedGeneration := 0
  phase := .unset
  ready := none
  completed := none
  startTime := none
  completionTime := none
  podName := ""
  currentPodUID := none
  retries := 0
  artifactValues := ∅
  agentReportedStatus := ""
  agentReportedMessage := ""

/-- A cluster with any Agents, AgentTasks, classes and Secrets, before the first
reconcile pass. -/
structure Fresh (s : Cluster) : Prop where
  taskKey : ∀ k t, s.tasks k = some t → t.key = k
  agentKey : ∀ k a, s.agents k = some a → a.key = k
  taskStatus : ∀ k t, s.tasks k = some t → t.status = .initial
  noChildren : ∀ κ k, κ ≠ .secret → s.children κ k = none
  noPods : s.pods = []
  noHistory : s.past = []
  noCalls : s.calls = []
  noneCreated : s.created = []
  noOutcomes : s.outcomes = []

theorem Fresh.view (h : Fresh s) {v : View} (hv : v ∈ s.views) : v = s.toView := by
  rwa [Cluster.views, h.noHistory, List.mem_singleton] at hv

theorem Fresh.lineage (h : Fresh s) : Lineage s s where
  taskKey := h.taskKey
  taskSpec _ t ht := ⟨t, ht, rfl⟩
  agentKey := h.agentKey
  agentFrom _ a ha := Option.isSome_iff_exists.mpr ⟨a, ha⟩

def Held (w : Workload) (s : Cluster) : Prop :=
  match w.kind with
  | .agent => ∃ a, s.agents w.key = some a ∧ a.finalizer = true
  | .agentTask => ∃ t, s.tasks w.key = some t ∧ t.finalizer = true

structure Recalls (s₀ : Cluster) (w : Workload) (tr : History) (s : Cluster) : Prop where
  /-- an object that was seen held is held -/
  held : SawSelf w tr → Held w s
  /-- whatever was read is one of the objects of the start -/
  taskRead : ∀ k t, ⟨.getTask k, .ok t⟩ ∈ tr → ∃ t₀, s₀.tasks k = some t₀ ∧ t.spec = t₀.spec
  agentRead : ∀ k a, ⟨.getAgent k, .ok a⟩ ∈ tr → s₀.present (agentWorkload k) = true
  /-- the stored status is the one the pass last saw or wrote -/
  base : w.kind = .agentTask → ∀ c t, (taskView w.key tr).base = some c →
    s.tasks w.key = some t → t.status.core = c

variable {s₀ : Cluster} {w' : Workload} {tr' : History} {op : Op} {r : Except ApiError (Ans op)}
  {e : EnvEvent}

theorem Held.present (h : Held w s) : s.present w = true := by
  cases w with
  | agent =>
    obtain ⟨a, ha, -⟩ := h
    exact Option.isSome_iff_exists.mpr ⟨a, ha⟩
  | agentTask =>
    obtain ⟨t, ht, -⟩ := h
    exact Option.isSome_iff_exists.mpr ⟨t, ht⟩

theorem Lineage.present (h : Lineage s₀ s) (hw : s.present w = true) : s₀.present w = true := by
  cases w with
  | agent key =>
    obtain ⟨a, ha⟩ := Option.isSome_iff_exists.mp hw
    exact h.agentFrom key a ha
  | agentTask key =>
    obtain ⟨t, ht⟩ := Option.isSome_iff_exists.mp hw
    obtain ⟨t₀, ht₀, -⟩ := h.taskSpec key t ht
    exact Option.isSome_iff_exists.mpr ⟨t₀, ht₀⟩

theorem Lineage.exec (h : Lineage s₀ s) (heff : Effect s op s') : Lineage s₀ s' where
  taskKey k t' ht' := by
    obtain ⟨t, ht, hkey, -⟩ := heff.task ht'
    exact hkey.trans (h.taskKey k t ht)
  taskSpec k t' ht' := by
    obtain ⟨t, ht, -, hspec, -⟩ := heff.task ht'
    obtain ⟨t₀, ht₀, hs⟩ := h.taskSpec k t ht
    exact ⟨t₀, ht₀, hspec.trans hs⟩
  agentKey k a' ha' := by
    obtain ⟨a, ha, hkey, -⟩ := heff.agent ha'
    exact hkey.trans (h.agentKey k a ha)
  agentFrom k a' ha' := by
    obtain ⟨a, ha, -⟩ := heff.agent ha'
    exact h.agentFrom k a ha

theorem Lineage.env (h : Lineage s₀ s) (heff : EnvEffect s e s') : Lineage s₀ s' where
  taskKey k t' ht' := by
    obtain ⟨t, ht, hkept⟩ := heff.task ht'
    exact hkept.key.trans (h.taskKey k t ht)
  taskSpec k t' ht' := by
    obtain ⟨t, ht, hkept⟩ := heff.task ht'
    obtain ⟨t₀, ht₀, hs⟩ := h.taskSpec k t ht
    exact ⟨t₀, ht₀, hkept.spec.trans hs⟩
  agentKey k a' ha' := by
    obtain ⟨a, ha, hkey, -⟩ := heff.agent ha'
    exact hkey.trans (h.agentKey k a ha)
  agentFrom k a' ha' := by
    obtain ⟨a, ha, -⟩ := heff.agent ha'
    exact h.agentFrom k a ha

theorem Held.env (h : Held w s) (heff : EnvEffect s e s') : Held w s' := by
  cases w with
  | agent =>
    obtain ⟨a, ha, hfin⟩ := h
    exact heff.agent_held ha hfin
  | agentTask =>
    obtain ⟨t, ht, hfin⟩ := h
    exact heff.tasks.stays ht hfin fun _ hkept => hkept.finalizer.trans hfin

/-- No pass but a workload's own lets go of it, and that one only when it has not
seen itself held. -/
theorem Held.exec (h : Held w' s) (heff : Effect s op s')
    (hallow : (contract cfg w).allows tr op) (hown : w' = w → SawSelf w tr) : Held w' s' := by
  cases w' with
  | agent =>
    obtain ⟨a, ha, hfin⟩ := h
    refine heff.agents.stays ha hfin ?_
    rintro new ⟨-, ⟨u, rfl, hkey, rfl⟩ | ⟨u, -, -, rfl⟩⟩
    · obtain ⟨hw, b, -, hmay⟩ := allows_updateAgent hallow
      rcases hmay.finalizer with hkeep | ⟨hself, -⟩
      · exact hkeep
      · exact absurd (hown (by rw [hw, hkey]; rfl)) (hw ▸ hself)
    · exact hfin
  | agentTask =>
    obtain ⟨t, ht, hfin⟩ := h
    refine heff.tasks.stays ht hfin ?_
    rintro new (⟨u, rfl, hkey, -⟩ | ⟨u, cause, -, -, rfl⟩ | hkept)
    · obtain ⟨hw, hself⟩ := allows_updateTask hallow
      exact absurd (hown (by rw [hw, hkey]; rfl)) hself
    · exact hfin
    · exact hkept.finalizer.trans hfin

theorem Effect.leaves_other (heff : Effect s op s') (hallow : (contract cfg w).allows tr op)
    (hkind : w'.kind = .agentTask) (hne : w' ≠ w) : Leaves w'.key s s' := by
  obtain hleaves | ⟨u, cause, t, rfl, hkey, -⟩ := heff.leaves w'.key
  · exact hleaves
  · refine absurd ?_ hne
    rw [(allows_updateTaskStatus hallow).1, hkey]
    obtain ⟨kind, key⟩ := w'
    cases hkind
    rfl

theorem Recalls.other (h : Recalls s₀ w' tr' s) (hne : w' ≠ w) (heff : Effect s op s')
    (hallow : (contract cfg w).allows tr op) : Recalls s₀ w' tr' s' where
  held hself := (h.held hself).exec heff hallow fun heq => absurd heq hne
  taskRead := h.taskRead
  agentRead := h.agentRead
  base := by
    intro hkind core t' hbase ht'
    obtain ⟨t, ht, -, hstatus⟩ := (heff.leaves_other hallow hkind hne).task t' ht'
    rw [hstatus]
    exact h.base hkind core t hbase ht

theorem Recalls.env (h : Recalls s₀ w tr s) (heff : EnvEffect s e s') : Recalls s₀ w tr s' where
  held hself := (h.held hself).env heff
  taskRead := h.taskRead
  agentRead := h.agentRead
  base := by
    intro hkind core t' hbase ht'
    obtain ⟨t, ht, hkept⟩ := heff.task ht'
    rw [hkept.status]
    exact h.base hkind core t hbase ht

section Step

variable (h : Recalls s₀ w tr s) (hallow : (contract cfg w).allows tr op)
  (hex : execute op c s = some (r, s'))
include h hallow hex

theorem Recalls.held_cons (hself : SawSelf w (⟨op, r⟩ :: tr)) : Held w s' := by
  cases w with
  | agent key =>
    obtain ⟨a, ha, hfin, hdel⟩ := hself
    rcases List.mem_cons.mp ha with heq | hold
    · cases heq
      obtain ⟨hstored, rfl⟩ := execute_getAgent hex
      exact ⟨a, hstored, hfin⟩
    · have hsaw : SawSelf ⟨.agent, key⟩ tr := ⟨a, hold, hfin, hdel⟩
      exact (h.held hsaw).exec (execute_effect hex) hallow fun _ => hsaw
  | agentTask key =>
    obtain ⟨t, ht, hfin, hdel⟩ := hself
    rcases List.mem_cons.mp ht with heq | hold
    · cases heq
      obtain ⟨hstored, rfl⟩ := execute_getTask hex
      exact ⟨t, hstored, hfin⟩
    · have hsaw : SawSelf ⟨.agentTask, key⟩ tr := ⟨t, hold, hfin, hdel⟩
      exact (h.held hsaw).exec (execute_effect hex) hallow fun _ => hsaw

theorem Recalls.base_cons (hkind : w.kind = .agentTask) (core : TaskCore)
    (t' : AgentTask) (hbase : (taskView w.key (⟨op, r⟩ :: tr)).base = some core)
    (ht' : s'.tasks w.key = some t') : t'.status.core = core := by
  have hkeep : (∀ t cause, op ≠ .updateTaskStatus t cause) →
      (taskView w.key tr).base = some core → t'.status.core = core := by
    intro hupd hold
    obtain ⟨t, ht, -, -, hstatus | ⟨u, cause, hop, -⟩⟩ := (execute_effect hex).task ht'
    · rw [hstatus]
      exact h.base hkind core t hold ht
    · exact absurd hop (hupd u cause)
  have hnoted := taskView_noted w.key ⟨op, r⟩ tr
  generalize taskView w.key (⟨op, r⟩ :: tr) = v at hnoted hbase
  cases hnoted with
  | fetched k t =>
    obtain ⟨rfl, -⟩ := allows_getTask hallow
    obtain ⟨hstored, rfl⟩ := execute_getTask hex
    obtain rfl : t = t' := Option.some.inj (hstored.symm.trans ht')
    exact Option.some.inj hbase
  | wrote t cause =>
    obtain ⟨rfl, -⟩ := allows_updateTaskStatus hallow
    obtain ⟨cur, hcur, rfl⟩ := execute_updateTaskStatus hex
    have hnew : some t' = some { cur with status := t.status, rv := s.revision + 1 } :=
      ht'.symm.trans (Function.update_self ..)
    rw [Option.some.inj hnew]
    exact Option.some.inj hbase
  | unsure => cases hbase
  | other _ hupd => exact hkeep hupd hbase
  | _ => exact hkeep (fun _ _ hop => by cases hop) hbase

theorem Recalls.cons (hline : Lineage s₀ s) : Recalls s₀ w (⟨op, r⟩ :: tr) s' where
  held := h.held_cons hallow hex
  taskRead k t ht := by
    rcases List.mem_cons.mp ht with heq | hold
    · cases heq
      exact hline.taskSpec k t (execute_getTask hex).1
    · exact h.taskRead k t hold
  agentRead k a ha := by
    rcases List.mem_cons.mp ha with heq | hold
    · cases heq
      exact hline.agentFrom k a (execute_getAgent hex).1
    · exact h.agentRead k a hold
  base := h.base_cons hallow hex

end Step

theorem honest_of_execute (hline : Lineage s₀ s) (hex : execute op c s = some (r, s')) :
    honest ⟨op, r⟩ := by
  unfold honest
  split
  · next heq => cases heq; exact hline.agentKey _ _ (execute_getAgent hex).1
  · next heq => cases heq; exact hline.taskKey _ _ (execute_getTask hex).1
  · next heq => cases heq; rw [(execute_createPod hex).1]; rfl
  · trivial

/-- Whatever happens, the lineage of the store and what passes know of themselves
are kept. -/
theorem lineage_proof (cfg : Config) (s₀ : Cluster) :
    (system cfg).Proof (contract cfg) (Lineage s₀) (Recalls s₀) (fun _ _ => True) where
  safe := safe_reconcile cfg
  start w s _ :=
    { held := fun h => by
        cases w with
        | agent => obtain ⟨a, ha, -⟩ := h; cases ha
        | agentTask => obtain ⟨t, ht, -⟩ := h; cases ht
      taskRead := fun k t h => by cases h
      agentRead := fun k a h => by cases h
      base := fun _ c t h => by cases h }
  answers σ w c tr op r s' hline hp := by
    rw [answers_honest]
    exact honest_of_execute hline hp.result
  exec σ w c tr op r s' hline hrec _ hallow hp :=
    ⟨hline.exec (execute_effect hp.result), hrec.cons hallow hp.result hline,
      fun w' x hne _ h => h.other hne (execute_effect hp.result) hallow⟩
  env σ e s' hline _ he := ⟨hline.env (envStep_effect he), fun w x _ h => h.env (envStep_effect he)⟩

/-! ## Status writes -/

/-- A task pass has made one of the moves of the state machine. -/
structure Writes (k : NamespacedName) (tr : History) (s s' : Cluster) (t u : AgentTask)
    (cause : Option Cause) : Prop where
  stored : s.tasks k = some t
  base : (taskView k tr).base = some t.status.core
  key : u.key = k
  store : s' = s.setTaskStatus u cause t
  move : TaskMove t.spec k tr t.status.core u.status.core cause

theorem Writes.task {t u t' : AgentTask} {cause : Option Cause} (h : Writes k tr s s' t u cause)
    (ht' : s'.tasks k = some t') :
    t' = { t with status := u.status, rv := s.revision + 1 } := by
  obtain ⟨-, -, rfl, rfl, -⟩ := h
  exact Option.some.inj (ht'.symm.trans (Function.update_self ..))

/-- A task across a step: its status is untouched, or its own pass, which knows `Q`,
has written it. -/
def TaskStep (Q : Workload → History → Prop) (s s' : Cluster) (k : NamespacedName) : Prop :=
  Leaves k s s' ∨ ∃ tr t u cause, Q (taskWorkload k) tr ∧ Writes k tr s s' t u cause

theorem Recalls.step {Q : Workload → History → Prop} (hrec : Recalls s₀ w tr s)
    (hline : Lineage s₀ s) (heff : Effect s op s') (hallow : (contract cfg w).allows tr op)
    (hQ : w.kind = .agentTask → Q w tr) (k : NamespacedName) : TaskStep Q s s' k := by
  obtain hleaves | ⟨u, cause, t, rfl, rfl, ht, rfl⟩ := heff.leaves k
  · exact .inl hleaves
  · obtain ⟨rfl, hmay⟩ := allows_updateTaskStatus hallow
    obtain ⟨t₀, c, hread, hspec₀, hbase, hmove⟩ := hmay.move
    obtain ⟨t₁, ht₁, hspec₁⟩ := hrec.taskRead _ t₀ hread
    obtain ⟨t₂, ht₂, hspec₂⟩ := hline.taskSpec _ t ht
    obtain rfl : t₁ = t₂ := Option.some.inj (ht₁.symm.trans ht₂)
    obtain rfl := hrec.base rfl c t hbase ht
    refine .inr ⟨tr, t, u, cause, hQ rfl, ht, hbase, rfl, rfl, ?_⟩
    rw [hspec₂, ← hspec₁, ← hspec₀]
    exact hmove

/-! ## Pod lists -/

def listing (σ : State) : Event → Option (Workload × List Pod)
  | .exec w c =>
    match σ.passes w with
    | some ⟨_, .call (.listPods ns selector) _⟩ =>
      match execute (.listPods ns selector) c σ.world with
      | some (.ok pods, _) => some (w, pods)
      | _ => none
    | _ => none
  | _ => none

theorem listing_of_performs {σ : State} {ns : String} {selector : Labels} {pods : List Pod}
    (h : (system cfg).Performs σ w c tr (.listPods ns selector) (.ok pods) s') :
    listing σ (.exec w c) = some (w, pods) := by
  obtain ⟨⟨k, hpass⟩, hresult⟩ := h
  have hresult' : execute (.listPods ns selector) c σ.world = some (.ok pods, s') := hresult
  simp only [listing, hpass, hresult']

theorem ownedPodIn_eq_none_iff (w : Workload) (pods : List Pod) (candidate : Option Pod) :
    ownedPodIn w pods candidate = none ↔ candidate = none ∧ ∀ p ∈ pods, p.owner ≠ w := by
  induction pods generalizing candidate with
  | nil => simp [ownedPodIn]
  | cons p rest ih =>
    unfold ownedPodIn
    split
    · next hne => rw [ih]; simp [hne]
    · next heq =>
      have howner : p.owner = w := not_not.mp heq
      split
      · simp [howner]
      · rw [ih]; simp [howner]

theorem mem_of_ownedPodIn (w : Workload) (pods : List Pod) (candidate : Option Pod) (p : Pod)
    (h : ownedPodIn w pods candidate = some p) :
    candidate = some p ∨ (p ∈ pods ∧ p.owner = w) := by
  induction pods generalizing candidate with
  | nil => exact .inl h
  | cons q rest ih =>
    unfold ownedPodIn at h
    split at h
    · rcases ih candidate h with hc | ⟨hm, ho⟩
      · exact .inl hc
      · exact .inr ⟨.tail q hm, ho⟩
    · next heq =>
      have howner : q.owner = w := not_not.mp heq
      split at h
      · cases h; exact .inr ⟨.head _, howner⟩
      · rcases ih (some q) h with hc | ⟨hm, ho⟩
        · cases hc; exact .inr ⟨.head _, howner⟩
        · exact .inr ⟨.tail q hm, ho⟩

/-! ## Concrete clusters

What the examples of the later modules are made of. -/

section Concrete

def plainClass : AgentClass where
  name := "plain"
  defaultImage := "image"
  imagePullSecrets := []
  podLabels := ∅
  allowedCIDRs := []
  allowSameNamespaceIngress := false
  resourceDefaults := ⟨∅, ∅⟩
  maxLimits := ∅
  defaultIdleTimeout := 0
  maxIdleTimeout := 0
  defaultHibernationDelay := 0
  maxHibernationDelay := 0
  pvcRetention := ""

def plainAgent (key : NamespacedName) : Agent where
  key := key
  generation := 1
  rv := 0
  finalizer := false
  deletionTimestamp := none
  wake := false
  spec := {
    agentClassRef := "plain", image := "", command := [], args := [], env := [], handler := none
    providers := [], resources := ⟨∅, ∅⟩, persistenceEnabled := false, existingClaim := none
    idleTimeout := 0, hibernationDelay := 0, hibernationEnabled := false, activitySource := none
    service := none }
  status := {
    observedGeneration := 0, phase := .unset, ready := none, degraded := none
    gatewayReachable := none, endpoint := "", podName := "", pvcName := ""
    lastActivityTime := none, phaseTransitionTime := none, hibernatedAt := none
    preDegradedPhase := .unset }

def plainTask (key : NamespacedName) (condition : CompletionCondition) (backoffLimit : Int) :
    AgentTask where
  key := key
  generation := 1
  rv := 0
  finalizer := false
  deletionTimestamp := none
  spec := {
    agentClassRef := "plain", image := "", persistenceEnabled := false, condition := condition
    timeout := 0, onTimeout := .fail, backoffLimit := backoffLimit, artifacts := []
    ttlSecondsAfterFinished := none }
  status := .initial

def plainCluster (agents : List Agent) (tasks : List AgentTask) : Cluster where
  agents k := agents.find? (·.key = k)
  tasks k := tasks.find? (·.key = k)
  classes name := if name = "plain" then some plainClass else none
  children _ _ := none
  pods := []
  calls := []
  nextUID := 1
  revision := 1
  clock := 0
  past := []
  created := []
  outcomes := []

theorem fresh_plainCluster {agents : List Agent} {tasks : List AgentTask}
    (h : ∀ t ∈ tasks, t.status = .initial) : Fresh (plainCluster agents tasks) where
  taskKey k t ht := by simpa using List.find?_some ht
  agentKey k a ha := by simpa using List.find?_some ha
  taskStatus k t ht := h t (List.mem_of_find?_eq_some ht)
  noChildren _ _ _ := rfl
  noPods := rfl
  noHistory := rfl
  noCalls := rfl
  noneCreated := rfl
  noOutcomes := rfl

theorem mem_of_present_plainCluster {agents : List Agent} {tasks : List AgentTask}
    (h : (plainCluster agents tasks).present w = true) :
    (w.kind = .agent ∧ ∃ a ∈ agents, a.key = w.key) ∨
      (w.kind = .agentTask ∧ ∃ t ∈ tasks, t.key = w.key) := by
  cases w with
  | agent key =>
    obtain ⟨a, ha⟩ := Option.isSome_iff_exists.mp h
    have hfound : agents.find? (·.key = key) = some a := ha
    exact .inl ⟨rfl, a, List.mem_of_find?_eq_some hfound, by simpa using List.find?_some hfound⟩
  | agentTask key =>
    obtain ⟨t, ht⟩ := Option.isSome_iff_exists.mp h
    have hfound : tasks.find? (·.key = key) = some t := ht
    exact .inr ⟨rfl, t, List.mem_of_find?_eq_some hfound, by simpa using List.find?_some hfound⟩

/-- A configuration without an activity client. -/
def plainConfig : Config := ⟨"kaalm-system", false, fun _ _ _ _ _ _ _ => "hash"⟩

/-- A pass whose first `n` operations go well. -/
def passEvents (w : Workload) (n : Nat) : List Event := .start w :: List.replicate n (.exec w .ok)

def reached (cfg : Config) (s : Cluster) (es : List Event) : State :=
  (exec (system cfg).step (PoolSpec.idle s) es).getD (PoolSpec.idle s)

def creating (σ : State) (w : Workload) : Option PodTemplate :=
  match σ.passes w with
  | some ⟨_, .call (.createPod tpl) _⟩ => some tpl
  | _ => none

theorem performs_of_creating (cfg : Config) {σ : State} {tpl : PodTemplate}
    (h : creating σ w = some tpl) :
    ∃ tr r s', (system cfg).Performs σ w .ok tr (.createPod tpl) r s' := by
  unfold creating at h
  split at h
  · next tr tpl' k hpass =>
    cases h
    exact ⟨tr, _, _, ⟨k, hpass⟩, rfl⟩
  · cases h

end Concrete

end Kaalm.Controller

/-
  Controller/Versions.lean --- the reconcilers behind an informer cache.

  THE CACHE.  The store of this system keeps every version of an Agent so far, and a
  read may answer any of them, or nothing yet (`Watched`).  The passes are the same
  programs; any number of them may run over one Agent at a time, so nothing rests on
  leader election.

  WHAT THE RESOURCEVERSION IS WORTH.  Two versions of one Agent with one
  resourceVersion are the same object (`VersionLog`).  A write that the API server
  accepts was therefore made over the stored object, whatever the cache has shown
  (`agent_after_exec`).
-/
import Kaalm.Controller.Lineage
import Kaalm.Foundation.VersionLog

namespace Kaalm.Controller

open Kaalm.Foundation
open Prog (Safe)

/-! ## How Agents change in one step -/

section Changes

variable {s s' : Cluster} {op : Op} {c : Choice} {e : EnvEvent} {k : NamespacedName}

theorem Effect.revision_le (h : Effect s op s') : s.revision ≤ s'.revision := by
  cases h with
  | skip => exact le_refl _
  | _ => exact Nat.le_succ _

theorem EnvEffect.revision_le (h : EnvEffect s e s') : s.revision ≤ s'.revision := by
  cases h with
  | tick | call | drop | deleteNothing | editClass => exact le_refl _
  | issue key c h => exact Nat.le_add_right s.revision 2
  | patch i c h =>
    simp only [landPatch]
    split
    · exact le_refl _
    · exact Nat.le_succ _
  | _ => exact Nat.le_succ _

/-- A stored agent is the one before, or carries a resourceVersion of its own. -/
def NewVersion (s s' : Cluster) (k : NamespacedName) (a' : Agent) : Prop :=
  s.agents k = some a' ∨ (a'.rv = s.revision + 1 ∧ s'.revision = s.revision + 1)

theorem Effect.newVersion (h : Effect s op s') {a' : Agent} (ha' : s'.agents k = some a') :
    NewVersion s s' k a' := by
  rcases h.agents.of_some ha' with hold | ⟨a, -, hrev, ⟨u, -, -, rfl⟩ | ⟨u, -, -, rfl⟩⟩
  · exact .inl hold
  · exact .inr ⟨rfl, hrev⟩
  · exact .inr ⟨rfl, hrev⟩

theorem EnvEffect.newVersion (h : EnvEffect s e s') {a' : Agent} (ha' : s'.agents k = some a') :
    NewVersion s s' k a' := by
  rcases h.agents.of_some ha' with hold | ⟨a, -, hrev, hedit⟩
  · exact .inl hold
  · rcases hedit with rfl | rfl | ⟨spec, -, rfl⟩ <;> exact .inr ⟨rfl, hrev⟩

theorem execute_updateAgentStatus {a : Agent} {rv : Nat}
    (h : execute (.updateAgentStatus a) c s = some (.ok rv, s')) :
    ∃ cur, s.agents a.key = some cur ∧ cur.rv = a.rv ∧
      s'.agents a.key = some { cur with status := a.status, rv := rv } := by
  obtain ⟨cur, hcur, hrv, hput⟩ := checkedUpdate_ok (execute_ok h rfl)
  cases hput
  exact ⟨cur, hcur, hrv, Function.update_self ..⟩

/-- The agent under `k` is left alone, or the operation is a write to it and meets
the resourceVersion it carries. -/
theorem execute_agents {r : Except ApiError (Ans op)} (h : execute op c s = some (r, s'))
    (k : NamespacedName) :
    s'.agents k = s.agents k ∨
    (∃ u cur, op = .updateAgentStatus u ∧ u.key = k ∧ s.agents k = some cur ∧ cur.rv = u.rv ∧
      s'.agents k = some { cur with status := u.status, rv := s.revision + 1 }) ∨
    (∃ u cur, op = .updateAgent u ∧ u.key = k ∧ s.agents k = some cur ∧ cur.rv = u.rv ∧
      s'.agents k = unlessReleased cur.deletionTimestamp.isSome u.finalizer
        { cur with finalizer := u.finalizer, wake := u.wake, rv := s.revision + 1 }) := by
  cases execute_effect h with
  | updateAgentStatus u cur hcur hrv =>
    by_cases hk : u.key = k
    · subst hk
      exact .inr (.inl ⟨u, cur, rfl, rfl, hcur, hrv, Function.update_self ..⟩)
    · exact .inl (Function.update_of_ne (Ne.symm hk) _ _)
  | updateAgent u cur hcur hrv =>
    by_cases hk : u.key = k
    · subst hk
      exact .inr (.inr ⟨u, cur, rfl, rfl, hcur, hrv, Function.update_self ..⟩)
    · exact .inl (Function.update_of_ne (Ne.symm hk) _ _)
  | _ => exact .inl rfl

end Changes

/-! ## The system -/

/-- The store, and every version of an Agent it has held. -/
structure Watched where
  cluster : Cluster
  /-- ghost: the versions so far, latest first -/
  versions : NamespacedName → List Agent

namespace Watched

/-- The first state: the versions are the stored ones. -/
def start (c : Cluster) : Watched := ⟨c, fun k => (c.agents k).toList⟩

/-- The store becomes `c`. -/
def advance (s : Watched) (c : Cluster) : Watched :=
  ⟨c, fun k => (c.agents k).toList ++ s.versions k⟩

theorem versions_advance (s : Watched) (c : Cluster) (k : NamespacedName) :
    s.versions k ⊆ (s.advance c).versions k :=
  List.subset_append_right _ _

theorem mem_versions_advance {s : Watched} {c : Cluster} {k : NamespacedName} {a : Agent} :
    a ∈ (s.advance c).versions k ↔ c.agents k = some a ∨ a ∈ s.versions k := by
  simp [advance]

end Watched

/-- How an operation goes: as the API server answers it, or, for a read of an Agent,
from the cache. -/
inductive CacheChoice where
  | live (c : Choice)
  /-- the version `lag` places down the list, or nothing when there is none -/
  | cached (lag : Nat)
  deriving DecidableEq

def executeCached : (op : Op) → CacheChoice → Watched → Option (Except ApiError (Ans op) × Watched)
  | op, .live c, s => (execute op c s.cluster).map fun x => (x.1, s.advance x.2)
  | .getAgent key, .cached lag, s =>
    match (s.versions key)[lag]? with
    | some a => some (.ok a, s)
    | none => some (.error .notFound, s)
  | _, .cached _, _ => none

def envCached (s : Watched) (e : EnvEvent) : Option Watched := (envStep s.cluster e).map s.advance

/-- Any number of workers over the workloads, each of which reads its Agent through
the cache. -/
def cachedSystem (cfg : Config) {W : Type} (workload : W → Workload) :
    PoolSpec Watched W Op Ans ApiError CacheChoice EnvEvent :=
  ⟨fun w => reconcile cfg (workload w), executeCached, envCached⟩

/-- What an executed operation answers and leaves behind. -/
inductive Served (s : Watched) : Observed → Watched → Prop
  | live {op : Op} {r : Except ApiError (Ans op)} {c : Choice} {t : Cluster}
      (h : execute op c s.cluster = some (r, t)) : Served s ⟨op, r⟩ (s.advance t)
  | cached {key : NamespacedName} {a : Agent} (h : a ∈ s.versions key) :
      Served s ⟨.getAgent key, .ok a⟩ s
  | unseen (key : NamespacedName) : Served s ⟨.getAgent key, .error .notFound⟩ s

theorem served_of_executeCached {op : Op} {c : CacheChoice} {s s' : Watched}
    {r : Except ApiError (Ans op)} (h : executeCached op c s = some (r, s')) :
    Served s ⟨op, r⟩ s' := by
  unfold executeCached at h
  split at h
  · obtain ⟨⟨r', t⟩, hx, heq⟩ := Option.map_eq_some_iff.mp h
    cases heq
    exact .live hx
  · split at h
    · next hget => cases h; exact .cached (List.mem_of_getElem? hget)
    · cases h; exact .unseen _
  · cases h

/-! ## Versions -/

/-- A cluster whose objects stand under their keys, with resourceVersions it has
given out. -/
structure Keyed (s : Cluster) : Prop where
  taskKey : ∀ k t, s.tasks k = some t → t.key = k
  agentKey : ∀ k a, s.agents k = some a → a.key = k
  agentRv : ∀ k a, s.agents k = some a → a.rv ≤ s.revision

structure Versioned (s₀ : Cluster) (s : Watched) : Prop where
  lineage : Lineage s₀ s.cluster
  stored : ∀ k a, s.cluster.agents k = some a → a ∈ s.versions k
  key : ∀ k a, a ∈ s.versions k → a.key = k
  log : ∀ k, VersionLog (fun a : Agent => a.rv) s.cluster.revision (s.versions k)

theorem Keyed.versioned {s : Cluster} (h : Keyed s) : Versioned s (Watched.start s) where
  lineage :=
    { taskKey := h.taskKey
      taskSpec := fun _ t ht => ⟨t, ht, rfl⟩
      agentKey := h.agentKey
      agentFrom := fun _ a ha => Option.isSome_iff_exists.mpr ⟨a, ha⟩ }
  stored _ _ ha := Option.mem_toList.mpr ha
  key k a ha := h.agentKey k a (Option.mem_toList.mp ha)
  log k := VersionLog.start (h.agentRv k)

section Steps

variable {cfg : Config} {s₀ t : Cluster} {s s' : Watched} {w : Workload} {tr : History}
  {o : Observed} {e : EnvEvent} {k : NamespacedName} {a a' b : Agent}

theorem Versioned.advance (h : Versioned s₀ s) (hline : Lineage s₀ t)
    (hrev : s.cluster.revision ≤ t.revision)
    (hnew : ∀ k a, t.agents k = some a → NewVersion s.cluster t k a) :
    Versioned s₀ (s.advance t) := by
  refine ⟨hline, fun k a ha => Watched.mem_versions_advance.mpr (.inl ha), fun k a ha => ?_,
    fun k => (h.log k).push hrev fun a ha => ?_⟩
  · rcases Watched.mem_versions_advance.mp ha with hcur | hold
    · exact hline.agentKey k a hcur
    · exact h.key k a hold
  · rcases hnew k a ha with hsame | ⟨hrv, hnext⟩
    · exact .inl (h.stored k a hsame)
    · exact .inr ⟨hrv, hnext.ge⟩

theorem Versioned.exec (h : Versioned s₀ s) (hs : Served s o s') : Versioned s₀ s' := by
  cases hs with
  | live hx =>
    have heff := execute_effect hx
    exact h.advance (h.lineage.exec heff) heff.revision_le fun _ _ ha => heff.newVersion ha
  | cached | unseen => exact h

theorem Versioned.env (h : Versioned s₀ s) (he : envCached s e = some s') : Versioned s₀ s' := by
  obtain ⟨t, ht, rfl⟩ := Option.map_eq_some_iff.mp he
  have heff := envStep_effect ht
  exact h.advance (h.lineage.env heff) heff.revision_le fun _ _ ha => heff.newVersion ha

theorem Versioned.eq_of_rv (h : Versioned s₀ s) (ha : s.cluster.agents k = some a)
    (hb : b ∈ s.versions k) (hrv : a.rv = b.rv) : a = b :=
  (h.log k).unique a (h.stored k a ha) b hb hrv

theorem Versioned.honest (h : Versioned s₀ s) (hs : Served s o s') : honest o := by
  cases hs with
  | live hx => exact honest_of_execute h.lineage hx
  | cached ha => exact h.key _ _ ha
  | unseen key => trivial

/-! ## What a pass knows -/

/-- The versions a pass believes to have been stored were stored. -/
def Recollects (w : Workload) (tr : History) (s : Watched) : Prop :=
  ∀ b, KnownVersion w.key tr b → b ∈ s.versions w.key

theorem Recollects.mono (h : Recollects w tr s) (hsub : s.versions w.key ⊆ s'.versions w.key) :
    Recollects w tr s' :=
  fun b hb => hsub (h b hb)

theorem Served.versions (hs : Served s o s') (k : NamespacedName) :
    s.versions k ⊆ s'.versions k := by
  cases hs with
  | live hx => exact Watched.versions_advance s _ k
  | cached | unseen => exact List.Subset.refl _

theorem Served.newVersion (hs : Served s o s') (ha' : s'.cluster.agents k = some a') :
    NewVersion s.cluster s'.cluster k a' := by
  cases hs with
  | live hx => exact (execute_effect hx).newVersion ha'
  | cached | unseen => exact .inl ha'

theorem Versioned.stored_before (h : Versioned s₀ s) (hnew : NewVersion s.cluster t k b)
    (hb : b ∈ s.versions k) : s.cluster.agents k = some b := by
  rcases hnew with hsame | ⟨hrv, -⟩
  · exact hsame
  · have hle := (h.log k).le b hb
    omega

theorem allows_getAgent (h : (contract cfg w).allows tr (.getAgent k)) :
    w = agentWorkload k ∧ tr = [] := by
  cases w with
  | agent => exact ⟨by rw [h.1]; rfl, h.2⟩
  | agentTask => exact False.elim h

theorem allows_updateAgentStatus {u : Agent}
    (h : (contract cfg w).allows tr (.updateAgentStatus u)) :
    w = agentWorkload u.key ∧ ∃ b, KnownVersion u.key tr b ∧ MayWriteStatusOf b u := by
  cases w with
  | agent =>
    obtain ⟨rfl, b, hb⟩ := h
    exact ⟨rfl, b, hb⟩
  | agentTask => exact False.elim h

theorem Recollects.cons (h : Recollects w tr s) (hver : Versioned s₀ s)
    (hallow : (contract cfg w).allows tr o.op) (hs : Served s o s') :
    Recollects w (o :: tr) s' := by
  intro b hb
  have hread : ∀ b, (⟨.getAgent w.key, .ok b⟩ : Observed) ∈ o :: tr → b ∈ s.versions w.key := by
    intro b hm
    rcases List.mem_cons.mp hm with rfl | hold
    · cases hs with
      | live hx => exact hver.stored _ b (execute_getAgent hx).1
      | cached ha => exact ha
    · exact h b (.read b hold)
  cases hb with
  | read b hm => exact hs.versions _ (hread b hm)
  | written b a rv hm hwrite hkey hrv =>
    rcases List.mem_cons.mp hwrite with rfl | hold
    · -- the write was accepted, so it was made over the version that was read
      cases hs with
      | live hx =>
        obtain ⟨cur, hcur, hcurrv, hnew⟩ := execute_updateAgentStatus hx
        rw [hkey] at hcur hnew
        obtain rfl : cur = b := hver.eq_of_rv hcur (hread b hm) (hcurrv.trans hrv)
        exact Watched.mem_versions_advance.mpr (.inl hnew)
    · rcases List.mem_cons.mp hm with rfl | hm'
      · rw [(allows_getAgent hallow).2] at hold
        cases hold
      · exact hs.versions _ (h _ (.written b a rv hm' hold hkey hrv))

end Steps

/-- Every run keeps the versions apart, and passes know what they have seen. -/
theorem cached_proof (cfg : Config) {W : Type} (workload : W → Workload) (s₀ : Cluster) :
    (cachedSystem cfg workload).Proof (fun w => contract cfg (workload w)) (Versioned s₀)
      (fun w => Recollects (workload w)) (fun _ _ => True) where
  safe w := safe_reconcile cfg (workload w)
  start w s _ := by
    intro b hb
    cases hb with
    | read b hm | written b a rv hm => cases hm
  answers σ w c tr op r s' hver hp := by
    rw [answers_honest]
    exact hver.honest (served_of_executeCached hp.result)
  exec σ w c tr op r s' hver hknows _ hallow hp := by
    have hs := served_of_executeCached hp.result
    exact ⟨hver.exec hs, hknows.cons hver hallow hs,
      fun w' x _ _ h => h.mono (hs.versions _)⟩
  env σ e s' hver _ he := by
    refine ⟨hver.env he, fun w x _ h => h.mono ?_⟩
    obtain ⟨t, -, rfl⟩ := Option.map_eq_some_iff.mp he
    exact Watched.versions_advance _ _ _

/-! ## Writes to an Agent -/

/-- What a pass with history `tr` can make of the stored agent `a`. -/
inductive AgentMove (k : NamespacedName) (tr : History) (a : Agent) : Option Agent → Prop
  | keep : AgentMove k tr a (some a)
  | status (u : Agent) (rv : Nat) (hknown : KnownVersion k tr a) (h : MayWriteStatusOf a u) :
      AgentMove k tr a (some { a with status := u.status, rv := rv })
  | metadata (u : Agent) (rv : Nat) (hknown : KnownVersion k tr a) (h : MayWriteMeta k tr a u) :
      AgentMove k tr a (unlessReleased a.deletionTimestamp.isSome u.finalizer
        { a with finalizer := u.finalizer, wake := u.wake, rv := rv })

/-- A stored agent after an operation: untouched, or written by its own pass over
the stored version. -/
theorem agent_after_exec {cfg : Config} {s₀ : Cluster} {s s' : Watched} {w : Workload}
    {tr : History} {o : Observed} {k : NamespacedName} {a : Agent} (hver : Versioned s₀ s)
    (hknows : Recollects w tr s) (hallow : (contract cfg w).allows tr o.op) (hs : Served s o s')
    (ha : s.cluster.agents k = some a) :
    s'.cluster.agents k = some a ∨
      (w = agentWorkload k ∧ AgentMove k tr a (s'.cluster.agents k)) := by
  cases hs with
  | live hx =>
    rcases execute_agents hx k with hsame | ⟨u, cur, rfl, rfl, hcur, hrv, hnew⟩ |
      ⟨u, cur, rfl, rfl, hcur, hrv, hnew⟩
    · exact .inl (hsame.trans ha)
    · obtain rfl : cur = a := Option.some.inj (hcur.symm.trans ha)
      obtain ⟨rfl, b, hb, hmay⟩ := allows_updateAgentStatus hallow
      obtain rfl : cur = b := hver.eq_of_rv hcur (hknows b hb) (hrv.trans hmay.rv)
      exact .inr ⟨rfl, hnew ▸ .status u _ hb hmay⟩
    · obtain rfl : cur = a := Option.some.inj (hcur.symm.trans ha)
      obtain ⟨rfl, b, hb, hmay⟩ := allows_updateAgent hallow
      obtain rfl : cur = b := hver.eq_of_rv hcur (hknows b hb) (hrv.trans hmay.rv)
      exact .inr ⟨rfl, hnew ▸ .metadata u _ hb hmay⟩
  | cached | unseen => exact .inl ha

/-- No update of an Agent is lost: a pass changes it only over the version that is
stored, which the pass has read or written itself. -/
theorem agent_written_over_known_version (cfg : Config) {W : Type} [DecidableEq W]
    (workload : W → Workload) {s₀ : Cluster} (hkeyed : Keyed s₀)
    {es : List (PoolEvent W CacheChoice EnvEvent)} {σ σ' : Pool Watched W Op Ans ApiError}
    (hrun : Run (cachedSystem cfg workload).step anyStep (PoolSpec.idle (Watched.start s₀)) es σ)
    {w : W} {c : CacheChoice} (hst : (cachedSystem cfg workload).step σ (.exec w c) = some σ')
    {k : NamespacedName} {a : Agent} (ha : σ.world.cluster.agents k = some a)
    (hnew : σ'.world.cluster.agents k ≠ some a) :
    workload w = agentWorkload k ∧ ∃ tr rest, σ.passes w = some ⟨tr, rest⟩ ∧
      KnownVersion k tr a := by
  have hsound := (cached_proof cfg workload s₀).run hrun (PoolSpec.sound_idle hkeyed.versioned)
  obtain hsame | ⟨w, c, tr, op, r, heq, hp⟩ | ⟨x, heq, -⟩ :=
    (cachedSystem cfg workload).step_world hst
  · rw [hsame] at hnew
    exact absurd ha hnew
  · cases heq
    obtain ⟨hallow, hknows⟩ := hsound.admits hp
    obtain hsame | ⟨hw, hmove⟩ :=
      agent_after_exec hsound.inv hknows hallow (served_of_executeCached hp.result) ha
    · exact absurd hsame hnew
    · refine ⟨hw, tr, _, hp.pass.choose_spec, ?_⟩
      generalize σ'.world.cluster.agents k = x at hnew hmove
      cases hmove with
      | keep => exact absurd rfl hnew
      | status _ _ hknown | metadata _ _ hknown => exact hknown
  · cases heq

theorem keyed_plainCluster {agents : List Agent} {tasks : List AgentTask}
    (h : ∀ a ∈ agents, a.rv ≤ 1) : Keyed (plainCluster agents tasks) where
  taskKey k t ht := by simpa using List.find?_some ht
  agentKey k a ha := by simpa using List.find?_some ha
  agentRv k a ha := h a (List.mem_of_find?_eq_some ha)

/-- A pass reads its new agent from the cache and writes the finalizer. -/
theorem agent_written_over_known_version_plain :
    ∃ (σ : Pool Watched Workload Op Ans ApiError) (a : Agent) (tr : History) (rest : _),
      σ.passes (agentWorkload ⟨"team", "x"⟩) = some ⟨tr, rest⟩ ∧
        KnownVersion ⟨"team", "x"⟩ tr a := by
  obtain ⟨σ, σ', hrun, hst, h⟩ := exists_step_of_exec
    (show (exec (cachedSystem plainConfig id).step
      (PoolSpec.idle (Watched.start (plainCluster [plainAgent ⟨"team", "x"⟩] [])))
      [.start (agentWorkload ⟨"team", "x"⟩), .exec (agentWorkload ⟨"team", "x"⟩) (.cached 0)]).any
        (fun σ => ((cachedSystem plainConfig id).step σ
          (.exec (agentWorkload ⟨"team", "x"⟩) (.live .ok))).any fun σ' =>
            (σ.world.cluster.agents ⟨"team", "x"⟩).any fun a =>
              σ'.world.cluster.agents ⟨"team", "x"⟩ ≠ some a) = true by decide +kernel)
  obtain ⟨a, ha, hnew⟩ := (Option.any_eq_true _ _).mp h
  obtain ⟨-, tr, rest, hpass, hknown⟩ := agent_written_over_known_version plainConfig id
    (keyed_plainCluster (by simp [plainAgent])) hrun hst ha (of_decide_eq_true hnew)
  exact ⟨σ, a, tr, rest, hpass, hknown⟩

end Kaalm.Controller

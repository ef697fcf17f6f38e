/-
  Controller/Isolation.lean --- the NetworkPolicy of a workload's Pod.

  Both reconcilers keep the policy of a workload under the workload's own name.
  An agent's pass creates or overwrites it, a task's pass leaves whatever is
  there.  As long as an agent and a task do not share a name, and specs and
  classes stay as they are, the policy there is the workload's, for as long as its
  Pods are created and beyond; where they do, it is the other one's.
-/
import Kaalm.Controller.Authentication

namespace Kaalm.Controller

open Kaalm.Foundation

def derivedPolicy (cfg : Config) (s : Cluster) (w : Workload) : Option NetworkPolicySpec :=
  match w.kind with
  | .agent => do
    let a ← s.agents w.key
    let cls ← s.classes a.spec.agentClassRef
    return desiredNetworkPolicy w.key.name cls (deriveEffectiveSpec a.spec cls)
      cfg.operatorNamespace
  | .agentTask => do
    let t ← s.tasks w.key
    let cls ← s.classes t.spec.agentClassRef
    return desiredTaskNetworkPolicy w.key.name cls cfg.operatorNamespace

theorem podSelector_derivedPolicy {cfg : Config} {s : Cluster} {w : Workload}
    {policy : NetworkPolicySpec} (h : derivedPolicy cfg s w = some policy) :
    policy.podSelector = workloadLabels w := by
  cases w with
  | agent =>
    obtain ⟨a, -, h⟩ := Option.bind_eq_some_iff.mp h
    obtain ⟨cls, -, h⟩ := Option.bind_eq_some_iff.mp h
    cases h
    rfl
  | agentTask =>
    obtain ⟨t, -, h⟩ := Option.bind_eq_some_iff.mp h
    obtain ⟨cls, -, h⟩ := Option.bind_eq_some_iff.mp h
    cases h
    rfl

theorem selects_podLabels (cls own : Labels) : own.selects (podLabels cls own) = true := by
  rw [Labels.selects, List.all_eq_true]
  intro e he
  rw [podLabels, GoMap.overlay, GoMap.lookup_foldl_insert own.entries cls own.nodupKeys e he]
  exact beq_self_eq_true _

def isEdit : Event → Bool
  | .env (.editAgent _ _) | .env (.editClass _ _) => true
  | _ => false

/-- The guard of runs in which specs and classes stay as they are. -/
def unedited (_ : State) (e : Event) : Prop := isEdit e = false

/-- No workload of the other kind has the same namespace and name. -/
def Alone (s₀ : Cluster) (w : Workload) : Prop :=
  ∀ w', s₀.present w' = true → w'.key = w.key → w' = w

/-! ## The invariant -/

/-- A NetworkPolicy that is owned by, and derived for, workloads of the name. -/
structure PolicyOf (cfg : Config) (s₀ : Cluster) (k : NamespacedName) (np : Stored .networkPolicy) :
    Prop where
  owner : ∃ w, s₀.present w = true ∧ w.key = k ∧ np.owner = some w
  derived : ∃ w, s₀.present w = true ∧ w.key = k ∧ derivedPolicy cfg s₀ w = some np.val

/-- Specs and classes are those of the start, and the policies are those of workloads of
their names. -/
structure Isolated (cfg : Config) (s₀ s : Cluster) : Prop where
  classes : ∀ v ∈ s.views, v.classes = s₀.classes
  agentSpec : ∀ k a, s.agents k = some a → ∃ a₀, s₀.agents k = some a₀ ∧ a.spec = a₀.spec
  policy : ∀ v ∈ s.views, ∀ k np, v.children .networkPolicy k = some np → PolicyOf cfg s₀ k np

/-- An observation after which the workload's policy is in place. -/
def settlesPolicy (w : Workload) : Observed → Prop
  | ⟨.create .networkPolicy k _ owner, .ok _⟩ => k = w.key ∧ owner = w
  | ⟨.create .networkPolicy k _ _, .error .alreadyExists⟩ => k = w.key
  | ⟨.update .networkPolicy k _, .ok _⟩ => k = w.key
  | _ => False

def HasPolicy (cfg : Config) (s₀ : Cluster) (w : Workload) (s : Cluster) : Prop :=
  ∃ np, s.children .networkPolicy w.key = some np ∧ np.owner = some w ∧
    derivedPolicy cfg s₀ w = some np.val

structure Derives (cfg : Config) (s₀ : Cluster) (w : Workload) (tr : History) (s : Cluster) :
    Prop where
  classRead : ∀ name cls, ⟨.getClass name, .ok cls⟩ ∈ tr → s₀.classes name = some cls
  specRead : ∀ k a, ⟨.getAgent k, .ok a⟩ ∈ tr → ∃ a₀, s₀.agents k = some a₀ ∧ a.spec = a₀.spec
  ownerRead : ∀ k np, ⟨.get .networkPolicy k, .ok np⟩ ∈ tr →
    ∃ w', s₀.present w' = true ∧ w'.key = k ∧ np.owner = some w'
  settled : Alone s₀ w → SawSelf w tr → (∃ o ∈ tr, settlesPolicy w o) → HasPolicy cfg s₀ w s

section Steps

variable {cfg : Config} {s₀ s s' : Cluster} {w w' : Workload} {tr tr' : History} {op : Op}
  {c : Choice} {r : Except ApiError (Ans op)} {e : EnvEvent}

theorem Isolated.hasPolicy (h : Isolated cfg s₀ s) (halone : Alone s₀ w)
    {np : Stored .networkPolicy} (hnp : s.children .networkPolicy w.key = some np) :
    HasPolicy cfg s₀ w s := by
  obtain ⟨⟨w₁, hw₁, hk₁, howner⟩, w₂, hw₂, hk₂, hderived⟩ := h.policy s.toView (.head _) _ np hnp
  obtain rfl := halone w₁ hw₁ hk₁
  obtain rfl := halone w₂ hw₂ hk₂
  exact ⟨np, hnp, howner, hderived⟩

theorem Derives.policyFor (h : Derives cfg s₀ w tr s) (hrec : Recalls s₀ w tr s)
    {policy : NetworkPolicySpec} (hp : PolicyFor cfg w tr policy) :
    derivedPolicy cfg s₀ w = some policy := by
  cases w with
  | agent key =>
    obtain ⟨a, cls, ha, hcls, rfl⟩ := hp
    obtain ⟨a₀, ha₀, hspec⟩ := h.specRead key a ha
    have hclass := h.classRead _ cls hcls
    rw [hspec] at hclass
    simp [derivedPolicy, ha₀, hclass, hspec]
  | agentTask key =>
    obtain ⟨t, cls, ht, hcls, rfl⟩ := hp
    obtain ⟨t₀, ht₀, hspec⟩ := hrec.taskRead key t ht
    have hclass := h.classRead _ cls hcls
    rw [hspec] at hclass
    simp [derivedPolicy, ht₀, hclass]

/-- A NetworkPolicy after an operation: the same, or written by the workload of
its name, with what is derived for it. -/
theorem Effect.networkPolicy (heff : Effect s op s') (hallow : (contract cfg w).allows tr op)
    (hline : Lineage s₀ s) (hrec : Recalls s₀ w tr s) (hder : Derives cfg s₀ w tr s)
    (k : NamespacedName) :
    s'.children .networkPolicy k = s.children .networkPolicy k ∨
      (k = w.key ∧ s₀.present w = true ∧
        ∃ np, s'.children .networkPolicy k = some np ∧ PolicyOf cfg s₀ k np) := by
  obtain hsame | ⟨val, owner, rfl, -, hnew⟩ | ⟨obj, cur, rfl, -, -, hnew⟩ :=
    heff.child .networkPolicy k
  · exact .inl hsame
  · obtain ⟨rfl, rfl, hpolicy, hself⟩ := allows_create hallow
    have hpresent := hline.present (hrec.held hself).present
    exact .inr ⟨rfl, hpresent, _, hnew, ⟨owner, hpresent, rfl, rfl⟩,
      owner, hpresent, rfl, hder.policyFor hrec hpolicy⟩
  · obtain ⟨-, rfl, hpolicy, hself, cur', hread, howner⟩ := allows_update hallow
    obtain ⟨w', hw', hk', hown⟩ := hder.ownerRead _ cur' hread
    have hpresent := hline.present (hrec.held hself).present
    exact .inr ⟨rfl, hpresent, _, hnew, ⟨w', hw', hk', howner.trans hown⟩,
      w, hpresent, rfl, hder.policyFor hrec hpolicy⟩

theorem Isolated.exec (h : Isolated cfg s₀ s) (heff : Effect s op s')
    (hallow : (contract cfg w).allows tr op) (hline : Lineage s₀ s) (hrec : Recalls s₀ w tr s)
    (hder : Derives cfg s₀ w tr s) : Isolated cfg s₀ s' where
  classes v hv := by
    rcases heff.views hv with rfl | hold
    · rw [← h.classes s.toView (.head _)]
      cases heff with
      | _ => rfl
    · exact h.classes v hold
  agentSpec k a' ha' := by
    obtain ⟨a, ha, -, hspec⟩ := heff.agent ha'
    obtain ⟨a₀, ha₀, hs⟩ := h.agentSpec k a ha
    exact ⟨a₀, ha₀, hspec.trans hs⟩
  policy v hv k np' hnp' := by
    rcases heff.views hv with rfl | hold
    · obtain hsame | ⟨-, -, np, hnew, hnp⟩ := heff.networkPolicy hallow hline hrec hder k
      · exact h.policy s.toView (.head _) k np' (hsame.symm.trans hnp')
      · obtain rfl : np = np' := Option.some.inj (hnew.symm.trans hnp')
        exact hnp
    · exact h.policy v hold k np' hnp'

theorem Isolated.env (h : Isolated cfg s₀ s) (heff : EnvEffect s e s') {σ : State}
    (hguard : unedited σ (.env e)) : Isolated cfg s₀ s' where
  classes v hv := by
    rcases heff.views hv with rfl | hold
    · rw [← h.classes s.toView (.head _)]
      cases heff with
      | editClass name cls => cases hguard
      | patch i c hc =>
        simp only [landPatch]
        split
        · rfl
        · rfl
      | _ => rfl
    · exact h.classes v hold
  agentSpec k a' ha' := by
    obtain ⟨a, ha, -, hspec | ⟨spec, rfl⟩⟩ := heff.agent ha'
    · obtain ⟨a₀, ha₀, hs⟩ := h.agentSpec k a ha
      exact ⟨a₀, ha₀, hspec.trans hs⟩
    · cases hguard
  policy v hv k np' hnp' := by
    rcases heff.views hv with rfl | hold
    · obtain hsame | ⟨c, w, -, -, -, hnone⟩ := heff.child .networkPolicy k (by decide)
      · exact h.policy s.toView (.head _) k np' (hsame.symm.trans hnp')
      · rw [hnone] at hnp'
        cases hnp'
    · exact h.policy v hold k np' hnp'

theorem HasPolicy.env (h : HasPolicy cfg s₀ w s) (hheld : Held w s) (heff : EnvEffect s e s') :
    HasPolicy cfg s₀ w s' := by
  obtain ⟨np, hnp, howner, hderived⟩ := h
  obtain hsame | ⟨c, w', hc, hown, hgone, -⟩ := heff.child .networkPolicy w.key (by decide)
  · exact ⟨np, hsame.trans hnp, howner, hderived⟩
  · obtain rfl : np = c := Option.some.inj (hnp.symm.trans hc)
    obtain rfl : w = w' := Option.some.inj (howner.symm.trans hown)
    rw [hheld.present] at hgone
    cases hgone

theorem Effect.networkPolicy_other (heff : Effect s op s')
    (hallow : (contract cfg w).allows tr op) (hline : Lineage s₀ s) (hrec : Recalls s₀ w tr s)
    (hder : Derives cfg s₀ w tr s) (halone : Alone s₀ w') (hne : w ≠ w') :
    s'.children .networkPolicy w'.key = s.children .networkPolicy w'.key := by
  obtain hsame | ⟨hkey, hpresent, -⟩ := heff.networkPolicy hallow hline hrec hder w'.key
  · exact hsame
  · exact absurd (halone w hpresent hkey.symm) hne

theorem stored_of_settlesPolicy (hex : execute op c s = some (r, s'))
    (h : settlesPolicy w ⟨op, r⟩) : ∃ np, s'.children .networkPolicy w.key = some np := by
  unfold settlesPolicy at h
  split at h
  · next k val owner a heq =>
    cases heq
    obtain ⟨rfl, -⟩ := h
    have happ := execute_ok hex rfl
    simp only [apply, applyCreate] at happ
    split at happ
    · cases happ
    · cases happ
      exact ⟨_, putChild_self ..⟩
  · next k val owner heq =>
    cases heq
    subst h
    have happ := execute_direct hex rfl (by simp)
    simp only [apply, applyCreate] at happ
    split at happ
    · next np hnp => cases happ; exact ⟨np, hnp⟩
    · cases happ
  · next k obj a heq =>
    cases heq
    subst h
    rw [execute_update hex]
    exact ⟨_, putChild_self ..⟩
  · exact False.elim h

theorem Derives.other (h : Derives cfg s₀ w' tr' s)
    (heff : Effect s op s') (hallow : (contract cfg w).allows tr op) (hline : Lineage s₀ s)
    (hrec : Recalls s₀ w tr s) (hder : Derives cfg s₀ w tr s) (hne : w' ≠ w) :
    Derives cfg s₀ w' tr' s' where
  classRead := h.classRead
  specRead := h.specRead
  ownerRead := h.ownerRead
  settled halone hself hsettled := by
    obtain ⟨np, hnp, hrest⟩ := h.settled halone hself hsettled
    exact ⟨np, (heff.networkPolicy_other hallow hline hrec hder halone hne.symm).trans hnp, hrest⟩

theorem Derives.env (h : Derives cfg s₀ w tr s) (hrec : Recalls s₀ w tr s)
    (heff : EnvEffect s e s') : Derives cfg s₀ w tr s' where
  classRead := h.classRead
  specRead := h.specRead
  ownerRead := h.ownerRead
  settled halone hself hsettled := (h.settled halone hself hsettled).env (hrec.held hself) heff

theorem sawSelf_of_cons (hallow : (contract cfg w).allows tr op)
    (h : SawSelf w (⟨op, r⟩ :: tr)) : SawSelf w tr ∨ tr = [] := by
  cases w with
  | agent =>
    obtain ⟨a, ha, hrest⟩ := h
    rcases List.mem_cons.mp ha with heq | hold
    · cases heq
      exact .inr hallow.2
    · exact .inl ⟨a, hold, hrest⟩
  | agentTask =>
    obtain ⟨t, ht, hrest⟩ := h
    rcases List.mem_cons.mp ht with heq | hold
    · cases heq
      exact .inr hallow.2
    · exact .inl ⟨t, hold, hrest⟩

theorem Derives.cons (h : Derives cfg s₀ w tr s) (hiso : Isolated cfg s₀ s)
    (hiso' : Isolated cfg s₀ s') (hline : Lineage s₀ s) (hrec : Recalls s₀ w tr s)
    (hallow : (contract cfg w).allows tr op) (hex : execute op c s = some (r, s')) :
    Derives cfg s₀ w (⟨op, r⟩ :: tr) s' where
  classRead name cls hcls := by
    rcases List.mem_cons.mp hcls with heq | hold
    · cases heq
      obtain ⟨-, ⟨hr, -⟩ | ⟨v, hv, hseen, -⟩⟩ := execute_cached hex rfl
      · cases hr
      · rw [← hiso.classes v hv]
        exact found_eq_ok.mp (Option.some.inj hseen)
    · exact h.classRead name cls hold
  specRead k a ha := by
    rcases List.mem_cons.mp ha with heq | hold
    · cases heq
      exact hiso.agentSpec k a (execute_getAgent hex).1
    · exact h.specRead k a hold
  ownerRead k np hnp := by
    rcases List.mem_cons.mp hnp with heq | hold
    · cases heq
      obtain ⟨-, v, hv, hseen, -⟩ := execute_get_ok hex
      exact (hiso.policy v hv k np hseen).owner
    · exact h.ownerRead k np hold
  settled halone hself hsettled := by
    obtain ⟨o, ho, hsettles⟩ := hsettled
    rcases List.mem_cons.mp ho with rfl | hold
    · obtain ⟨np, hnp⟩ := stored_of_settlesPolicy hex hsettles
      exact hiso'.hasPolicy halone hnp
    · -- the policy was in place before, so a later write of it is one of this pass
      have hself' : SawSelf w tr := by
        rcases sawSelf_of_cons hallow hself with hs | rfl
        · exact hs
        · cases hold
      obtain ⟨np, hnp, howner, hderived⟩ := h.settled halone hself' ⟨o, hold, hsettles⟩
      obtain hsame | ⟨-, -, np', hnp', -⟩ :=
        (execute_effect hex).networkPolicy hallow hline hrec h w.key
      · exact ⟨np, hsame.trans hnp, howner, hderived⟩
      · exact hiso'.hasPolicy halone hnp'

end Steps

/-- Passes keep the policies of workloads whose names are their own. -/
theorem isolation_proof (cfg : Config) (s₀ : Cluster) :
    (system cfg).Proof (contract cfg) (fun s => Lineage s₀ s ∧ Isolated cfg s₀ s)
      (fun w tr s => Recalls s₀ w tr s ∧ Derives cfg s₀ w tr s) unedited := by
  refine (lineage_proof cfg s₀).extend (fun _ _ _ => trivial) ?_ ?_ ?_
  · intro w s _ _
    exact ⟨fun _ _ h => (by cases h), fun _ _ h => (by cases h), fun _ _ h => (by cases h),
      fun _ _ ⟨o, ho, _⟩ => (by cases ho)⟩
  · intro σ w c tr op r s' hline hiso hrec hder _ hallow hp _
    have heff := execute_effect hp.result
    have hiso' := hiso.exec heff hallow hline hrec hder
    exact ⟨hiso', hder.cons hiso hiso' hline hrec hallow hp.result, fun w' x hne _ _ hder' =>
      hder'.other heff hallow hline hrec hder hne⟩
  · intro σ e s' _ hiso hguard he
    have heff := envStep_effect he
    exact ⟨hiso.env heff hguard, fun w x _ hrec hder => hder.env hrec heff⟩

theorem Fresh.isolated {s : Cluster} (cfg : Config) (h : Fresh s) : Isolated cfg s s where
  classes v hv := by rw [h.view hv]
  agentSpec _ a ha := ⟨a, ha, rfl⟩
  policy v hv k np hnp := by
    rw [h.view hv, h.noChildren .networkPolicy k (by decide)] at hnp
    cases hnp

theorem SawPolicy.settles {cfg : Config} {w : Workload} {tr : History} (h : SawPolicy cfg w tr) :
    ∃ o ∈ tr, settlesPolicy w o := by
  rcases h with ⟨policy, -, hm⟩ | ⟨obj, -, hm⟩ | ⟨-, policy, -, hm⟩
  · exact ⟨_, hm, rfl, rfl⟩
  · exact ⟨_, hm, rfl⟩
  · exact ⟨_, hm, rfl⟩

/-! ## The Pod and its policy -/

/-- In every run in which no spec and no class is edited: when a pass creates a Pod
for a workload that shares its namespace and name with no workload of the other
kind, the NetworkPolicy derived for the workload is stored and selects the Pod; and
however the run goes on, no pass of another workload changes it. -/
theorem pod_isolated_by_its_policy (cfg : Config) {s₀ : Cluster} (hfresh : Fresh s₀)
    {es : List Event} {σ : State}
    (hrun : Run (system cfg).step unedited (PoolSpec.idle s₀) es σ) {w : Workload} {c : Choice}
    {tr : History} {tpl : PodTemplate} {r : Except ApiError Pod} {s' : Cluster}
    (hp : (system cfg).Performs σ w c tr (.createPod tpl) r s')
    (halone : ∀ w', s₀.present w' = true → w'.key = w.key → w' = w) :
    (∃ np, σ.world.children .networkPolicy w.key = some np ∧
      np.val.podSelector.selects tpl.labels = true ∧ derivedPolicy cfg s₀ w = some np.val) ∧
    ∀ es' σ', Run (system cfg).step unedited σ es' σ' →
      ∀ w' c' tr' op r' s'', w' ≠ w → (system cfg).Performs σ' w' c' tr' op r' s'' →
        s''.children .networkPolicy w.key = σ'.world.children .networkPolicy w.key := by
  have hsound := (isolation_proof cfg s₀).run hrun
    (PoolSpec.sound_idle ⟨hfresh.lineage, hfresh.isolated cfg⟩)
  constructor
  · obtain ⟨hallow, -, hder⟩ := hsound.admits hp
    have hmay := allows_createPod hallow
    obtain ⟨np, hnp, -, hderived⟩ := hder.settled halone hmay.self hmay.policy.settles
    obtain ⟨cls, hlabels⟩ := hmay.labels
    refine ⟨np, hnp, ?_, hderived⟩
    rw [podSelector_derivedPolicy hderived, hlabels]
    exact selects_podLabels cls _
  · intro es' σ' hrun' w' c' tr' op r' s'' hne hp'
    have hsound' := (isolation_proof cfg s₀).run hrun' hsound
    obtain ⟨hallow, hrec, hder⟩ := hsound'.admits hp'
    exact (execute_effect hp'.result).networkPolicy_other hallow hsound'.inv.1 hrec hder halone hne

theorem soloPod_isolated :
    ∃ σ tpl np, Run (system plainConfig).step unedited (PoolSpec.idle soloCluster) soloEvents σ ∧
      creating σ (taskWorkload soloKey) = some tpl ∧
      σ.world.children .networkPolicy soloKey = some np ∧
      np.val.podSelector = taskPodLabels soloKey.name ∧
      np.val.podSelector.selects tpl.labels = true ∧
      derivedPolicy plainConfig soloCluster (taskWorkload soloKey) = some np.val := by
  obtain ⟨tpl, htpl⟩ := Option.isSome_iff_exists.mp (show (creating
    (reached plainConfig soloCluster soloEvents) (taskWorkload soloKey)).isSome = true by
      decide +kernel)
  obtain ⟨tr, r, s', hp⟩ := performs_of_creating plainConfig htpl
  have hrun := run_getD_of_guard (fun _ => show ∀ e ∈ soloEvents, isEdit e = false by
    decide +kernel) (show (exec (system plainConfig).step (PoolSpec.idle soloCluster)
      soloEvents).isSome = true by decide +kernel)
  obtain ⟨⟨np, hnp, hselects, hderived⟩, -⟩ := pod_isolated_by_its_policy plainConfig
    fresh_soloCluster hrun hp (fun w hw _ => present_soloCluster hw)
  exact ⟨_, tpl, np, hrun, htpl, hnp, podSelector_derivedPolicy hderived, hselects, hderived⟩

/-- The agent's Pod and policy first, then the task's Pod under the same name. -/
def twinPolicyEvents : List Event :=
  passEvents (agentWorkload soloKey) 2 ++ passEvents (agentWorkload soloKey) 9 ++
    [.env (.issue (certificateKey (agentWorkload soloKey)))] ++
    passEvents (agentWorkload soloKey) 14 ++
    passEvents (taskWorkload soloKey) 2 ++ passEvents (taskWorkload soloKey) 10

theorem taskPod_without_policy :
    Fresh twinCluster ∧
    Run (system plainConfig).step unedited (PoolSpec.idle twinCluster) twinPolicyEvents
      (reached plainConfig twinCluster twinPolicyEvents) ∧
    ∃ tpl tr r s', (system plainConfig).Performs
        (reached plainConfig twinCluster twinPolicyEvents) (taskWorkload soloKey) .ok tr
        (.createPod tpl) r s' ∧
      ∀ k np, (reached plainConfig twinCluster twinPolicyEvents).world.children .networkPolicy k =
        some np → np.val.podSelector.selects tpl.labels = false := by
  have hrun : Run (system plainConfig).step unedited (PoolSpec.idle twinCluster)
      twinPolicyEvents (reached plainConfig twinCluster twinPolicyEvents) :=
    run_getD_of_guard (fun _ => show ∀ e ∈ twinPolicyEvents, isEdit e = false by decide +kernel)
      (by decide +kernel)
  refine ⟨fresh_twinCluster, hrun, ?_⟩
  have hlabels : (creating (reached plainConfig twinCluster twinPolicyEvents)
      (taskWorkload soloKey)).map (fun tpl =>
        ((reached plainConfig twinCluster twinPolicyEvents).world.children .networkPolicy
          soloKey).any fun np => np.val.podSelector.selects tpl.labels) = some false := by
    decide +kernel
  obtain ⟨tpl, htpl, hselects⟩ := Option.map_eq_some_iff.mp hlabels
  obtain ⟨tr, r, s', hp⟩ := performs_of_creating plainConfig htpl
  refine ⟨tpl, tr, r, s', hp, fun k np hnp => ?_⟩
  -- every policy is named after a workload, and both workloads have the one name
  have hsound := (isolation_proof plainConfig twinCluster).run hrun
    (PoolSpec.sound_idle ⟨fresh_twinCluster.lineage, fresh_twinCluster.isolated plainConfig⟩)
  obtain ⟨w, hw, rfl, -⟩ := (hsound.inv.2.policy _ (.head _) k np hnp).owner
  rw [key_of_present_twinCluster hw] at hnp
  rw [hnp] at hselects
  exact hselects

end Kaalm.Controller

/-
  Controller/SinglePod.lean --- how many live Pods a workload has.

  A pass creates a Pod only after a Pod list that showed none of its workload, and
  at most one per list.  So a workload has at most one live Pod as long as no list
  hides a live one: `showsLive` is that condition.  A list from an informer cache
  that lags need not meet it, and then a second Pod is created, as its name comes
  from `GenerateName`.
-/
import Kaalm.Controller.Isolation

namespace Kaalm.Controller

open Kaalm.Foundation

/-- The workload's Pods without a deletion timestamp. -/
def livePods (w : Workload) (pods : List Pod) : List Pod :=
  pods.filter fun p => p.owner = w ∧ p.live

/-- A Pod list that shows none of its workload hides no live one. -/
def showsLive (σ : State) (e : Event) : Bool :=
  match listing σ e with
  | some (w, pods) => (ownedPodIn w pods none).isSome || (livePods w σ.world.pods).isEmpty
  | none => true

/-! ## Counting -/

theorem PodsMove.livePods_le {pods pods' : List Pod} (h : PodsMove pods pods') (w : Workload) :
    (livePods w pods').length ≤ (livePods w pods).length := by
  simp only [livePods, ← List.countP_eq_length_filter]
  cases h with
  | map f htemplate huid hlive =>
    rw [List.countP_map]
    refine List.countP_mono_left fun p _ hp => ?_
    simp only [Function.comp_apply, decide_eq_true_eq] at hp ⊢
    refine ⟨?_, hlive p hp.2⟩
    rw [← hp.1]
    exact congrArg PodTemplate.owner (htemplate p).symm
  | filter q => exact List.filter_sublist.countP_le

theorem PodsMove.livePods_eq_nil {pods pods' : List Pod} (h : PodsMove pods pods') {w : Workload}
    (hnil : livePods w pods = []) : livePods w pods' = [] := by
  have hle := h.livePods_le w
  rw [hnil] at hle
  exact List.eq_nil_of_length_eq_zero (Nat.le_zero.mp hle)

theorem livePods_append (w : Workload) (pods : List Pod) (p : Pod) :
    livePods w (pods ++ [p]) = livePods w pods ++ livePods w [p] := by
  simp [livePods]

/-! ## The invariant -/

def Single (s : Cluster) : Prop := ∀ w, (livePods w s.pods).length ≤ 1

section Steps

variable {cfg : Config} {s s' : Cluster} {w w' : Workload} {tr : History} {op : Op}

theorem Single.move (h : Single s) (hmove : PodsMove s.pods s'.pods) : Single s' :=
  fun w => (hmove.livePods_le w).trans (h w)

theorem Single.addPod (h : Single s) {tpl : PodTemplate} (hmay : MayCreatePod cfg w tr tpl)
    (hnone : livePods w s.pods = []) : Single (s.addPod tpl) := by
  intro w'
  show (livePods w' (s.pods ++ [tpl.instantiate s.nextUID s.clock])).length ≤ 1
  rw [livePods_append, List.length_append]
  have hnew : (livePods w' [tpl.instantiate s.nextUID s.clock]).length ≤ 1 :=
    List.length_filter_le _ _
  by_cases hw : w = w'
  · subst hw
    rw [hnone, List.length_nil, Nat.zero_add]
    exact hnew
  · have hother : livePods w' [tpl.instantiate s.nextUID s.clock] = [] := by
      refine List.filter_eq_nil_iff.mpr fun p hp => ?_
      rw [List.mem_singleton.mp hp]
      have howner : (tpl.instantiate s.nextUID s.clock).owner = w := hmay.owner
      simp [howner, hw]
    rw [hother, List.length_nil, Nat.add_zero]
    exact h w'

theorem Effect.livePods_other (heff : Effect s op s') (hallow : (contract cfg w).allows tr op)
    (hne : w' ≠ w) (hnil : livePods w' s.pods = []) : livePods w' s'.pods = [] := by
  obtain ⟨hsame, -⟩ | ⟨tpl, rfl, rfl⟩ | ⟨hmove, -⟩ := heff.pods
  · rw [hsame]; exact hnil
  · show livePods w' (s.pods ++ _) = []
    rw [livePods_append, hnil, List.nil_append]
    refine List.filter_eq_nil_iff.mpr fun p hp => ?_
    rw [List.mem_singleton.mp hp]
    have howner : (tpl.instantiate s.nextUID s.clock).owner = w := (allows_createPod hallow).owner
    simp [howner, hne.symm]
  · exact hmove.livePods_eq_nil hnil

theorem sawNoPod_cons {r : Except ApiError (Ans op)} (h : sawNoPod w (⟨op, r⟩ :: tr) = true) :
    (∃ ns selector pods, (⟨op, r⟩ : Observed) = ⟨.listPods ns selector, .ok pods⟩ ∧
      ownedPodIn w pods none = none) ∨
    ((∀ tpl, op ≠ .createPod tpl) ∧ sawNoPod w tr = true) := by
  unfold sawNoPod at h
  split at h
  · cases h
  · next ns selector pods tr' heq =>
    cases heq
    exact .inl ⟨ns, selector, pods, rfl, Option.isNone_iff_eq_none.mp h⟩
  · cases h
  · next o tr' hlist hcreate heq =>
    cases heq
    refine .inr ⟨fun tpl hop => ?_, h⟩
    subst hop
    exact hcreate tpl r rfl

end Steps

/-- As long as no Pod list hides a live Pod, a pass that saw none is right. -/
theorem singlePod_proof (cfg : Config) (s₀ : Cluster) :
    (system cfg).Proof (contract cfg) (fun s => Lineage s₀ s ∧ Single s)
      (fun w tr s => Recalls s₀ w tr s ∧ (sawNoPod w tr = true → livePods w s.pods = []))
      (fun σ e => showsLive σ e = true) := by
  refine (lineage_proof cfg s₀).extend (fun _ _ _ => trivial) ?_ ?_ ?_
  · intro w s _ _ h
    cases h
  · intro σ w c tr op r s' _ hsingle _ hknows hguard hallow hp _
    have heff := execute_effect hp.result
    refine ⟨?_, fun hsaw => ?_, fun w' x hne _ _ h hsaw =>
      heff.livePods_other hallow hne (h hsaw)⟩
    · obtain ⟨hsame, -⟩ | ⟨tpl, rfl, rfl⟩ | ⟨hmove, -⟩ := heff.pods
      · exact hsingle.move (by rw [hsame]; exact podsMove_refl _)
      · have hmay := allows_createPod hallow
        exact hsingle.addPod hmay (hknows hmay.noPod)
      · exact hsingle.move hmove
    · rcases sawNoPod_cons hsaw with ⟨ns, selector, pods, heq, hnone⟩ | ⟨hop, hold⟩
      · cases heq
        have hlisted := listing_of_performs hp
        simp only [showsLive, hlisted, hnone, Option.isSome_none, Bool.false_or,
          List.isEmpty_iff] at hguard
        cases heff with
        | skip => exact hguard
      · obtain ⟨hsame, -⟩ | ⟨tpl, rfl, -⟩ | ⟨hmove, -⟩ := heff.pods
        · rw [hsame]; exact hknows hold
        · exact absurd rfl (hop tpl)
        · exact hmove.livePods_eq_nil (hknows hold)
  · intro σ e s' _ hsingle _ he
    obtain ⟨hmove, -⟩ := (envStep_effect he).pods_move
    exact ⟨hsingle.move hmove, fun w x _ _ h hsaw => hmove.livePods_eq_nil (h hsaw)⟩

/-- In every run whose Pod lists hide no live Pod of the workload that asks, no
workload ever has two live Pods. -/
theorem at_most_one_live_pod (cfg : Config) {s₀ : Cluster} (hfresh : Fresh s₀)
    {es : List Event} {σ : State}
    (hrun : Run (system cfg).step (fun σ e => showsLive σ e = true) (PoolSpec.idle s₀) es σ)
    (w : Workload) : (livePods w σ.world.pods).length ≤ 1 := by
  have hstart : Single s₀ := fun w => by
    rw [hfresh.noPods]
    exact Nat.zero_le 1
  have hsound := (singlePod_proof cfg s₀).run hrun
    (PoolSpec.sound_idle ⟨hfresh.lineage, hstart⟩)
  exact hsound.inv.2 w

/-- The Pod is created, and the next pass watches it. -/
def watchedEvents : List Event :=
  soloEvents ++ List.replicate 2 (.exec (taskWorkload soloKey) .ok) ++
    passEvents (taskWorkload soloKey) 4

theorem watchedPod_single :
    ∃ σ, exec (guarded showsLive (system plainConfig).step) (PoolSpec.idle soloCluster)
        watchedEvents = some σ ∧ (livePods (taskWorkload soloKey) σ.world.pods).length ≤ 1 := by
  obtain ⟨σ, hσ⟩ := Option.isSome_iff_exists.mp (show (exec
    (guarded showsLive (system plainConfig).step) (PoolSpec.idle soloCluster)
      watchedEvents).isSome = true by decide +kernel)
  exact ⟨σ, hσ, at_most_one_live_pod plainConfig fresh_soloCluster (run_of_exec_guarded hσ) _⟩

/-- The Pod is created; the next pass lists from a cache that has not seen it. -/
def laggingEvents : List Event :=
  soloEvents ++ List.replicate 2 (.exec (taskWorkload soloKey) .ok) ++
    passEvents (taskWorkload soloKey) 2 ++ [.exec (taskWorkload soloKey) (.listed 1 [])] ++
    List.replicate 8 (.exec (taskWorkload soloKey) .ok)

theorem twoLivePods_of_laggingList :
    Fresh soloCluster ∧
    Run (system plainConfig).step anyStep (PoolSpec.idle soloCluster) laggingEvents
      (reached plainConfig soloCluster laggingEvents) ∧
    (livePods (taskWorkload soloKey)
      (reached plainConfig soloCluster laggingEvents).world.pods).length = 2 :=
  ⟨fresh_soloCluster, run_any (by decide +kernel), by decide +kernel⟩

end Kaalm.Controller
